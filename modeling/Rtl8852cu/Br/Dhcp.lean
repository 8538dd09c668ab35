import Rtl8852cu.Lib.OnesSum

/-!
# The broadcast flag of a DHCP request

`dhcp_flag_bcast` of `core/rtw_br_ext.c`: the flag is set in the requests that go out, and the UDP checksum is changed along
with it.

The frame is in memory from 0 on.
-/

namespace Rtl8852cu.Br

open Lib

def ethAlen : ℕ := 6
def ethHlen : ℕ := 14
def ethPIp : BitVec 16 := 0x0800
def ipprotoUdp : BitVec 8 := 17
def clientPort : BitVec 16 := 68
def serverPort : BitVec 16 := 67
def dhcpMagic : BitVec 32 := 0x63825363
def broadcastFlag : BitVec 16 := 0x8000

/-- `iph->ihl << 2` -/
def ipHdrLen (m : ByteMem) : ℕ := (m ethHlen).toNat % 16 * 4

/-- `udph` -/
def udpAt (m : ByteMem) : ℕ := ethHlen + ipHdrLen m

/-- The place of `udph->check`. -/
def checkAt (m : ByteMem) : ℕ := udpAt m + 6

/-- The place of `dhcph->flags`. -/
def flagsAt (m : ByteMem) : ℕ := udpAt m + 18

/-- The place of `dhcph->cookie`. -/
def cookieAt (m : ByteMem) : ℕ := udpAt m + 244

/-- The checksum that is stored, for the one that was there and the new flags. -/
def recalculated (check flags : BitVec 16) : BitVec 16 := ~~~ BitVec.ofNat 16 (foldSum ((~~~ check).toNat + flags.toNat))

/-- `dhcp_flag_bcast`, of a frame. -/
def dhcpFlagBcast (e : ByteOrder) (dhcpBcstDisable : Bool) (m : ByteMem) : ByteMem :=
  if dhcpBcstDisable then m
  else if e.read16 m (2 * ethAlen) = e.htons ethPIp then
    if m (ethHlen + 9) = ipprotoUdp then
      if e.read16 m (udpAt m) = e.htons clientPort ∧ e.read16 m (udpAt m + 2) = e.htons serverPort then
        if e.read32 m (cookieAt m) = e.htonl dhcpMagic then
          let flags := e.read16 m (flagsAt m)
          if flags &&& e.htons broadcastFlag = 0 then
            let flags := flags ||| e.htons broadcastFlag
            e.write16 (e.write16 m (flagsAt m) flags) (checkAt m) (recalculated (e.read16 m (checkAt m)) flags)
          else m
        else m
      else m
    else m
  else m

/-! ### The checksum -/

def udpLen (m : ByteMem) : ℕ := (be16 m (udpAt m + 4)).toNat

/-- The sum of the pseudo header and the datagram. -/
def udpSum (m : ByteMem) : ℕ :=
  onesSum m (ethHlen + 12) 8 + ipprotoUdp.toNat + udpLen m + onesSum m (udpAt m) (udpLen m)

def ChecksumAbsent (m : ByteMem) : Prop := be16 m (checkAt m) = 0

/-- There is a checksum, and with it the sum is all ones. -/
def ChecksumValid (m : ByteMem) : Prop := be16 m (checkAt m) ≠ 0 ∧ foldSum (udpSum m) = 0xffff

/-- A DHCP request in an Ethernet frame; its datagram goes at least up to the options. -/
structure DhcpRequest (m : ByteMem) : Prop where
  ip : be16 m (2 * ethAlen) = ethPIp
  ihl : 20 ≤ ipHdrLen m
  udp : m (ethHlen + 9) = ipprotoUdp
  source : be16 m (udpAt m) = clientPort
  dest : be16 m (udpAt m + 2) = serverPort
  cookie : be32 m (cookieAt m) = dhcpMagic
  room : 248 ≤ udpLen m

/-- **The flag is set where that is not turned off, the checksum says the same, and nothing else has changed.** -/
structure FlagOnly (dhcpBcstDisable : Bool) (m m' : ByteMem) : Prop where
  valid : ChecksumValid m → ChecksumValid m'
  absent : ChecksumAbsent m → ChecksumAbsent m'
  flags : be16 m' (flagsAt m) = if dhcpBcstDisable then be16 m (flagsAt m) else be16 m (flagsAt m) ||| broadcastFlag
  others : ∀ i, i ∉ [checkAt m, checkAt m + 1, flagsAt m, flagsAt m + 1] → m' i = m i

variable {e : ByteOrder} {m : ByteMem} {dhcpBcstDisable : Bool}

/-- The new checksum as the network sees it, for the old one and the new flags. -/
def newCheck (e : ByteOrder) (check flags : BitVec 16) : BitVec 16 := e.htons (recalculated (e.htons check) (e.htons flags))

theorem toNat_recalculated (check flags : BitVec 16) :
    (recalculated check flags).toNat = 65535 - foldSum (65535 - check.toNat + flags.toNat) := by
  have hlt := foldSum_lt ((~~~ check).toNat + flags.toNat)
  unfold recalculated
  rw [BitVec.toNat_not, BitVec.toNat_ofNat, Nat.mod_eq_of_lt hlt, BitVec.toNat_not]

theorem newCheck_mod (check flags : BitVec 16) :
    ((newCheck e check flags).toNat + flags.toNat) % 65535 = check.toNat % 65535 := by
  have hnew : e.htons (newCheck e check flags) = recalculated (e.htons check) (e.htons flags) := htons_htons _
  have hc := toNat_htons_mod (e := e) check
  have hf := toNat_htons_mod (e := e) flags
  have hn := toNat_htons_mod (e := e) (newCheck e check flags)
  rw [hnew, toNat_recalculated] at hn
  have hlt := foldSum_lt (65535 - (e.htons check).toNat + (e.htons flags).toNat)
  have hmod := foldSum_mod (65535 - (e.htons check).toNat + (e.htons flags).toNat)
  have := (e.htons check).isLt
  generalize foldSum _ = s at hlt hmod hn
  cases e with
  | little =>
    dsimp only at hc hf hn; omega
  | big =>
    dsimp only at hc hf hn; omega

theorem newCheck_eq_zero_iff (check : BitVec 16) {flags : BitVec 16} (hflags : flags ≠ 0) :
    newCheck e check flags = 0 ↔ check.toNat % 65535 = flags.toNat % 65535 := by
  have hzero : newCheck e check flags = 0 ↔ (recalculated (e.htons check) (e.htons flags)).toNat = 0 := by
    have hinj : newCheck e check flags = 0 ↔ recalculated (e.htons check) (e.htons flags) = 0 := by
      conv_lhs => rw [← htons_zero (e := e)]
      exact htons_inj
    rw [hinj, ← BitVec.toNat_inj]; rfl
  have hpos : (e.htons flags).toNat ≠ 0 := by
    intro h
    exact hflags (htons_inj.mp ((BitVec.eq_of_toNat_eq h : e.htons flags = 0).trans (htons_zero (e := e)).symm))
  have hc := toNat_htons_mod (e := e) check
  have hf := toNat_htons_mod (e := e) flags
  have hlt := foldSum_lt (65535 - (e.htons check).toNat + (e.htons flags).toNat)
  have hones := foldSum_eq_allOnes_iff (65535 - (e.htons check).toNat + (e.htons flags).toNat)
  have := (e.htons check).isLt
  rw [hzero, toNat_recalculated]
  generalize foldSum _ = s at hlt hones ⊢
  cases e with
  | little =>
    dsimp only at hc hf; omega
  | big =>
    dsimp only at hc hf; omega

/-! ### The frame -/

/-- The frame that is sent where the flag was not set. -/
def withFlag (e : ByteOrder) (m : ByteMem) : ByteMem :=
  let flags := be16 m (flagsAt m) ||| broadcastFlag
  e.write16 (e.write16 m (flagsAt m) (e.htons flags)) (checkAt m) (e.htons (newCheck e (be16 m (checkAt m)) flags))

theorem dhcpFlagBcast_eq (h : DhcpRequest m) : dhcpFlagBcast e dhcpBcstDisable m =
      if dhcpBcstDisable = true ∨ be16 m (flagsAt m) &&& broadcastFlag ≠ 0 then m else withFlag e m := by
  unfold dhcpFlagBcast
  cases dhcpBcstDisable with
  | true => rw [if_pos rfl, if_pos (.inl rfl)]
  | false =>
    have hflags : e.read16 m (flagsAt m) &&& e.htons broadcastFlag = 0 ↔ be16 m (flagsAt m) &&& broadcastFlag = 0 := by
      rw [read16_eq, ← htons_and]
      conv_lhs => rw [← htons_zero (e := e)]
      exact htons_inj
    rw [if_neg Bool.false_ne_true, if_pos (read16_eq_htons_iff.mpr h.ip), if_pos h.udp,
      if_pos ⟨read16_eq_htons_iff.mpr h.source, read16_eq_htons_iff.mpr h.dest⟩,
      if_pos (read32_eq_htonl_iff.mpr h.cookie)]
    dsimp only
    by_cases hbcst : be16 m (flagsAt m) &&& broadcastFlag = 0
    · rw [if_pos (hflags.mpr hbcst), if_neg (by rintro (h | h); exacts [Bool.false_ne_true h, h hbcst])]
      unfold withFlag newCheck
      dsimp only
      rw [htons_htons, read16_eq, read16_eq, ← htons_or]
    · rw [if_neg (mt hflags.mp hbcst), if_pos (.inr hbcst)]

theorem withFlag_others {i : ℕ} (hi : i ∉ [checkAt m, checkAt m + 1, flagsAt m, flagsAt m + 1]) :
    withFlag e m i = m i := by
  simp only [List.mem_cons, List.not_mem_nil, or_false, not_or] at hi
  obtain ⟨h1, h2, h3, h4⟩ := hi
  unfold withFlag
  rw [write16_of_ne h1 h2, write16_of_ne h3 h4]

theorem withFlag_ipHdrLen : ipHdrLen (withFlag e m) = ipHdrLen m := by
  unfold ipHdrLen
  rw [withFlag_others]
  have hhlen : ethHlen = 14 := rfl
  simp only [List.mem_cons, List.not_mem_nil, or_false, not_or]
  unfold checkAt flagsAt udpAt; omega

theorem withFlag_flags : be16 (withFlag e m) (flagsAt m) = be16 m (flagsAt m) ||| broadcastFlag := by
  unfold withFlag
  rw [be16_write16_disjoint (by unfold flagsAt checkAt; omega), be16_write16_same, htons_htons]

theorem withFlag_check :
    be16 (withFlag e m) (checkAt m) = newCheck e (be16 m (checkAt m)) (be16 m (flagsAt m) ||| broadcastFlag) := by
  unfold withFlag
  rw [be16_write16_same, htons_htons]

theorem withFlag_udpLen : udpLen (withFlag e m) = udpLen m := by
  have hlen : be16 (withFlag e m) (udpAt m + 4) = be16 m (udpAt m + 4) := by
    unfold withFlag
    rw [be16_write16_disjoint (by unfold checkAt; omega), be16_write16_disjoint (by unfold flagsAt; omega)]
  unfold udpLen
  unfold udpAt at hlen ⊢
  rw [withFlag_ipHdrLen, hlen]

theorem withFlag_udpSum (h : DhcpRequest m) :
    udpSum (withFlag e m) + (be16 m (flagsAt m)).toNat + (be16 m (checkAt m)).toNat =
      udpSum m + (be16 m (flagsAt m) ||| broadcastFlag).toNat +
        (newCheck e (be16 m (checkAt m)) (be16 m (flagsAt m) ||| broadcastFlag)).toNat := by
  have hroom := h.room
  have hihl := h.ihl
  have hhlen : ethHlen = 14 := rfl
  have hpseudo : onesSum (withFlag e m) (ethHlen + 12) 8 = onesSum m (ethHlen + 12) 8 := by
    refine onesSum_congr fun i hi => withFlag_others ?_
    simp only [List.mem_cons, List.not_mem_nil, or_false, not_or]
    unfold checkAt flagsAt udpAt; omega
  have hflags : onesSum (e.write16 m (udpAt m + 18) (e.htons (be16 m (flagsAt m) ||| broadcastFlag))) (udpAt m) (udpLen m) +
      (be16 m (udpAt m + 18)).toNat = onesSum m (udpAt m) (udpLen m) +
        (e.htons (e.htons (be16 m (flagsAt m) ||| broadcastFlag))).toNat :=
    onesSum_write16 rfl (by omega)
  have hcheck := onesSum_write16 (m := e.write16 m (flagsAt m) (e.htons (be16 m (flagsAt m) ||| broadcastFlag)))
    (a := udpAt m) (n := udpLen m) (k := 6) (e := e)
    (w := e.htons (newCheck e (be16 m (checkAt m)) (be16 m (flagsAt m) ||| broadcastFlag))) rfl (by omega)
  rw [be16_write16_disjoint (by unfold flagsAt; omega), htons_htons] at hcheck
  rw [htons_htons] at hflags
  have hat : udpAt (withFlag e m) = udpAt m := by
    unfold udpAt
    rw [withFlag_ipHdrLen]
  unfold udpSum
  rw [hpseudo, withFlag_udpLen, hat]
  unfold withFlag
  unfold checkAt flagsAt at *
  dsimp only at hcheck hflags ⊢; omega

theorem toNat_or_broadcastFlag {flags : BitVec 16} (h : flags &&& broadcastFlag = 0) :
    (flags ||| broadcastFlag).toNat = flags.toNat + 2 ^ 15 ∧ flags ||| broadcastFlag ≠ 0 := by
  have hadd : (flags ||| broadcastFlag).toNat = flags.toNat + 2 ^ 15 := by
    rw [← BitVec.add_eq_or_of_and_eq_zero _ _ h, BitVec.toNat_add_of_and_eq_zero h]; rfl
  refine ⟨hadd, fun hz => ?_⟩
  rw [hz] at hadd; exact absurd hadd.symm (Nat.ne_of_gt (Nat.add_pos_right _ (by decide)))

theorem or_broadcastFlag {flags : BitVec 16} (h : flags &&& broadcastFlag ≠ 0) : flags ||| broadcastFlag = flags := by
  have hpow : broadcastFlag = BitVec.twoPow 16 15 := rfl
  rw [hpow] at h ⊢
  rw [BitVec.and_twoPow] at h
  have hbit : flags.getLsbD 15 = true := by
    by_contra hbit
    rw [if_neg hbit] at h; exact h rfl
  refine BitVec.eq_of_getLsbD_eq fun i hi => ?_
  rw [BitVec.getLsbD_or, BitVec.getLsbD_twoPow]
  by_cases hi' : 15 = i
  · subst hi'; rw [hbit, Bool.true_or]
  · rw [decide_eq_false hi', Bool.and_false, Bool.or_false]

theorem withFlag_checkAt : checkAt (withFlag e m) = checkAt m := by
  unfold checkAt udpAt
  rw [withFlag_ipHdrLen]

theorem withFlag_valid_iff (h : DhcpRequest m) (hbcst : be16 m (flagsAt m) &&& broadcastFlag = 0) (hval : ChecksumValid m) :
    ChecksumValid (withFlag e m) ↔ be16 m (flagsAt m) = 0 ∧ be16 m (checkAt m) ≠ 0x8000 := by
  obtain ⟨hadd, hne⟩ := toNat_or_broadcastFlag hbcst
  obtain ⟨hcheck, hones⟩ := hval
  have hzero := newCheck_eq_zero_iff (e := e) (be16 m (checkAt m)) hne
  have hmod := newCheck_mod (e := e) (be16 m (checkAt m)) (be16 m (flagsAt m) ||| broadcastFlag)
  have hsum := withFlag_udpSum (e := e) h
  have hpos : ipprotoUdp.toNat ≤ udpSum (withFlag e m) := by
    unfold udpSum; omega
  have hproto : ipprotoUdp.toNat = 17 := rfl
  have hlt := (be16 m (flagsAt m) ||| broadcastFlag).isLt
  have hcheckLt := (be16 m (checkAt m)).isLt
  have hnum : ∀ {x y : BitVec 16}, x = y ↔ x.toNat = y.toNat := BitVec.toNat_inj.symm
  have hlit : (0x8000 : BitVec 16).toNat = 0x8000 := rfl
  have hlit0 : (0 : BitVec 16).toNat = 0 := rfl
  rw [foldSum_eq_allOnes_iff] at hones
  rw [ne_eq, hnum, hlit0] at hcheck
  unfold ChecksumValid
  rw [withFlag_checkAt, withFlag_check, foldSum_eq_allOnes_iff, ne_eq, hzero, ne_eq (be16 m (checkAt m)), hnum,
    hnum (y := 0x8000), hlit, hlit0]
  omega

theorem withFlag_absent_iff (hbcst : be16 m (flagsAt m) &&& broadcastFlag = 0) (habs : ChecksumAbsent m) :
    ChecksumAbsent (withFlag e m) ↔ be16 m (flagsAt m) = 0x7fff := by
  obtain ⟨hadd, hne⟩ := toNat_or_broadcastFlag hbcst
  have hzero := newCheck_eq_zero_iff (e := e) (be16 m (checkAt m)) hne
  have hlt := (be16 m (flagsAt m) ||| broadcastFlag).isLt
  have hlit : (0x7fff : BitVec 16).toNat = 0x7fff := rfl
  have hlit0 : (0 : BitVec 16).toNat = 0 := rfl
  unfold ChecksumAbsent at *
  rw [withFlag_checkAt, withFlag_check, hzero, habs, ← BitVec.toNat_inj, hlit, hlit0]; omega

/-- **The requests whose checksum still says the same.** -/
def ChecksumKept (dhcpBcstDisable : Bool) (m : ByteMem) : Prop :=
  dhcpBcstDisable = true ∨ be16 m (flagsAt m) &&& broadcastFlag ≠ 0 ∨
    (be16 m (flagsAt m) = 0 ∧ be16 m (checkAt m) ≠ 0 ∧ be16 m (checkAt m) ≠ 0x8000) ∨
    (be16 m (flagsAt m) = 0x7fff ∧ be16 m (checkAt m) = 0)

theorem flagOnly_refl (hd : dhcpBcstDisable = true ∨ be16 m (flagsAt m) &&& broadcastFlag ≠ 0) :
    FlagOnly dhcpBcstDisable m m where
  valid := id
  absent := id
  others := fun _ _ => rfl
  flags := by
    split_ifs with hdis
    · rfl
    · exact (or_broadcastFlag (hd.resolve_left hdis)).symm

/-- **The flag is set and the checksum still says the same**, exactly for these requests. -/
theorem dhcp_flag_bcast_iff (e : ByteOrder) (dhcpBcstDisable : Bool) (m : ByteMem) (h : DhcpRequest m)
    (hcheck : ChecksumValid m ∨ ChecksumAbsent m) :
    FlagOnly dhcpBcstDisable m (dhcpFlagBcast e dhcpBcstDisable m) ↔ ChecksumKept dhcpBcstDisable m := by
  rw [dhcpFlagBcast_eq h]
  by_cases hd : dhcpBcstDisable = true ∨ be16 m (flagsAt m) &&& broadcastFlag ≠ 0
  · rw [if_pos hd]; exact iff_of_true (flagOnly_refl hd) (hd.imp_right .inl)
  rw [if_neg hd]
  obtain ⟨hdis, hbcst⟩ := not_or.mp hd
  rw [not_not] at hbcst
  constructor
  · intro hf
    refine .inr (.inr ?_)
    rcases hcheck with hval | habs
    · obtain ⟨hflags, hlit⟩ := (withFlag_valid_iff h hbcst hval).mp (hf.valid hval)
      exact .inl ⟨hflags, hval.1, hlit⟩
    · exact .inr ⟨(withFlag_absent_iff hbcst habs).mp (hf.absent habs), habs⟩
  · intro hk
    refine ⟨fun hval => ?_, fun habs => ?_, ?_, fun i hi => withFlag_others hi⟩
    · rcases (hk.resolve_left hdis).resolve_left (not_not.mpr hbcst) with ⟨hflags, -, hlit⟩ | ⟨-, habs⟩
      · exact (withFlag_valid_iff h hbcst hval).mpr ⟨hflags, hlit⟩
      · exact absurd habs hval.1
    · rcases (hk.resolve_left hdis).resolve_left (not_not.mpr hbcst) with ⟨-, hne, -⟩ | ⟨hflags, -⟩
      · exact absurd habs hne
      · exact (withFlag_absent_iff hbcst habs).mpr hflags
    · rw [if_neg hdis, withFlag_flags]

/-- A request with nothing but its headers, flags `0x00 flags` and the cookie. -/
def dhcpFrame (flags : BitVec 8) (check : BitVec 16) : ByteMem := fun i =>
  if i = 12 then 0x08 else if i = 14 then 0x45 else if i = 23 then 17 else if i = 35 then 68 else if i = 37 then 67
  else if i = 39 then 248 else if i = 40 then check.extractLsb' 8 8 else if i = 41 then check.extractLsb' 0 8
  else if i = 53 then flags
  else if i = 278 then 0x63 else if i = 279 then 0x82 else if i = 280 then 0x53 else if i = 281 then 0x63 else 0

/-- A request without flags. -/
theorem dhcpFrame_kept : FlagOnly false (dhcpFrame 0 0x4692) (dhcpFlagBcast .little false (dhcpFrame 0 0x4692)) := by
  have hval : ChecksumValid (dhcpFrame 0 0x4692) :=
    ⟨by decide, (foldSum_eq_allOnes_iff _).mpr (by decide +kernel)⟩
  have hreq : DhcpRequest (dhcpFrame 0 0x4692) := by constructor <;> decide
  exact (dhcp_flag_bcast_iff .little false _ hreq (.inl hval)).mpr (.inr (.inr (.inl (by decide))))

/-- One of the flags that must be zero is set: the checksum is not valid any more. -/
theorem dhcpFrame_broken : DhcpRequest (dhcpFrame 1 0x4691) ∧ ChecksumValid (dhcpFrame 1 0x4691) ∧
      ¬ FlagOnly false (dhcpFrame 1 0x4691) (dhcpFlagBcast .little false (dhcpFrame 1 0x4691)) := by
  have hval : ChecksumValid (dhcpFrame 1 0x4691) :=
    ⟨by decide, (foldSum_eq_allOnes_iff _).mpr (by decide +kernel)⟩
  have hreq : DhcpRequest (dhcpFrame 1 0x4691) := by constructor <;> decide
  refine ⟨hreq, hval, fun hf => ?_⟩
  rw [dhcpFlagBcast_eq hreq, if_neg (by decide)] at hf
  exact absurd ((withFlag_valid_iff hreq (by decide) hval).mp (hf.valid hval)).1 (by decide)

end Rtl8852cu.Br
