import Rtl8852cu.Br.Dhcp
import Rtl8852cu.Br.Nat25

/-!
# Frames of the clients behind a bridge

`rtw_br_client_tx` of `core/rtw_xmit.c` puts the MAC address of the interface into a frame, and the table remembers the
client.  A tag of 802.1Q is cut out on the way and put back.  `br_ip` and `scdb_ip`, which it only writes, are left out.
-/

namespace Rtl8852cu.Br.ClientTx

open Lib

def ethP8021q : BitVec 16 := 0x8100

/-- A frame of `len` bytes at `data`. -/
structure Skb where
  mem : ByteMem
  data : ℕ
  len : ℕ

/-- The half word at `src` is copied. -/
def copy16 (m : ByteMem) (dst src : ℕ) : ByteMem :=
  fun i => if i = dst then m src else if i = dst + 1 then m (src + 1) else m i

def macByte (mac : MacAddr) (i : ℕ) : BitVec 8 := mac.extractLsb' (8 * (5 - i)) 8

namespace Skb

variable (skb : Skb)

def half (i : ℕ) : BitVec 16 := be16 skb.mem (skb.data + i)

/-- `_rtw_memcmp` of the source address with another one: it is `_TRUE` when they are equal. -/
def hasSa (mac : MacAddr) : Bool :=
  (List.range 6).all fun i => skb.mem (skb.data + 6 + i) = macByte mac i

def sa : MacAddr :=
  have m := fun i => skb.mem (skb.data + 6 + i)
  m 0 ++ m 1 ++ m 2 ++ m 3 ++ m 4 ++ m 5

def setSa (mac : MacAddr) : Skb :=
  { skb with mem := fun i => if skb.data + 6 ≤ i ∧ i < skb.data + 12 then macByte mac (i - (skb.data + 6)) else skb.mem i }

/-- The network address of the IP source. -/
def sourceAddr : NetworkAddr :=
  have m := fun i => skb.mem (skb.data + 26 + i)
  nat25GenerateIpv4NetworkAddr (m 0) (m 1) (m 2) (m 3)

/-- The addresses are moved over the tag, and `skb_pull`. -/
def pullTag : Skb where
  mem := (List.range 6).foldl (fun m i => copy16 m (skb.data + 14 - 2 * i) (skb.data + 10 - 2 * i)) skb.mem
  data := skb.data + 4
  len := skb.len - 4

/-- `skb_push`, and the tag before the type. -/
def pushTag (vlanHdr : BitVec 16) : Skb :=
  have data := skb.data - 4
  have m := (List.range 6).foldl (fun m i => copy16 m (data + 2 * i) (data + 4 + 2 * i)) skb.mem
  ⟨ByteOrder.big.write16 (ByteOrder.big.write16 m (data + 12) ethP8021q) (data + 14) vlanHdr, data, skb.len + 4⟩

def dhcpFlagBcast (e : ByteOrder) (dhcpBcstDisable : Bool) : Skb :=
  have m := Br.dhcpFlagBcast e dhcpBcstDisable fun i => skb.mem (skb.data + i)
  { skb with mem := fun i => if i < skb.data then skb.mem i else m (i - skb.data) }

/-- The tags of the frame, one behind the other. -/
def tags : List (BitVec 16) := tagsFrom skb.mem (skb.data + 12) (skb.len / 4)
where
  tagsFrom (m : ByteMem) (a : ℕ) : ℕ → List (BitVec 16)
    | 0 => []
    | n + 1 => if be16 m a = ethP8021q then be16 m (a + 2) :: tagsFrom m (a + 4) n else []

end Skb

inductive Nat25Method
  | check | insert

/-- `nat25_db_handle`: it leaves the addresses and the tags of a frame, which stays where it is. -/
structure Nat25 where
  handle : Nat25Method → Adapter → Skb → ℤ × Adapter × Skb
  data_eq : ∀ method s skb, (handle method s skb).2.2.data = skb.data
  sa_eq : ∀ method s skb mac, (handle method s skb).2.2.hasSa mac = skb.hasSa mac
  tags_eq : ∀ method s skb, (handle method s skb).2.2.tags = skb.tags

structure BrEnv where
  own : MacAddr
  brMac : MacAddr
  brPort : Bool
  now : Jiffies
  order : ByteOrder
  dhcpBcstDisable : Bool
  copyOk : Bool
  linearizeOk : Bool
  nat25 : Nat25

/-- How the slow path ends: the frame is to be translated, let go with a warning, or dropped. -/
inductive Outcome
  | goesOn (skb : Skb)
  | warned (skb : Skb)
  | dropped

def Outcome.frame : Outcome → Option Skb
  | .goesOn skb | .warned skb => some skb
  | .dropped => none

variable (b : BrEnv)

/-- `vlan_hdr`, if the frame has a tag. -/
def vlanHdr (skb : Skb) : Option (BitVec 16) := if skb.half 12 = ethP8021q then some (skb.half 14) else none

/-- The frame without its tag. -/
def cut (skb : Skb) : Skb := if (vlanHdr skb).isSome then skb.pullTag else skb

def restore (tag : Option (BitVec 16)) (skb : Skb) : Skb := tag.elim skb skb.pushTag

/-- `nat25_db_handle` with `NAT25_CHECK`, and the copy; none where there is no memory for it. -/
def checked (tag : Option (BitVec 16)) (s : Adapter) (skb : Skb) : Option (Adapter × Skb) :=
  let (res, s, skb) := b.nat25.handle .check s skb
  if res = 0 then if b.copyOk then some (s, if tag.isSome then (restore tag skb).pullTag else skb) else none
  else some (s, skb)

/-- The table is asked for the frame without its tag. -/
def askNat25 (tag : Option (BitVec 16)) (s : Adapter) (skb : Skb) : Outcome × Adapter :=
  match checked b tag s skb with
  | none => (.dropped, (b.nat25.handle .check s skb).2.1)
  | some (s, skb) =>
    if b.linearizeOk then
      let (res, s, skb) := b.nat25.handle .insert s skb
      (if res < 0 then if res = -2 then .dropped else .warned skb else .goesOn skb, s)
    else (.dropped, s)

/-- What becomes of the cached client, with a frame without its tag. -/
def scdbUpdate (s : Adapter) (skb : Skb) : Adapter :=
  if skb.half 12 = ethPIp then s.rtwBrClientTx b.now skb.sourceAddr skb.sa else s

/-- `do_nat25` -/
def doNat25 (s : Adapter) (skb : Skb) : Bool := !(skb.half 12 = ethPIp && (scdbUpdate b s skb).scdbEntry.isSome)

/-- The branch without the shortcut. -/
def slowPath (s : Adapter) (skb : Skb) : Outcome × Adapter :=
  let tag := vlanHdr skb
  let skb := cut skb
  let (outcome, s) :=
    if doNat25 b s skb then askNat25 b tag (scdbUpdate b s skb) skb else (.goesOn skb, scdbUpdate b s skb)
  match outcome with
  | .goesOn skb => (.goesOn (restore tag ((skb.setSa b.own).dhcpFlagBcast b.order b.dhcpBcstDisable)), s)
  | outcome => (outcome, s)

/-- The test for the shortcut, with `_rtw_memcmp` as it is. -/
def fastPath (s : Adapter) (skb : Skb) : Bool :=
  !(skb.mem skb.data).getLsbD 0 && b.brPort && skb.hasSa b.brMac && skb.half 12 ≠ ethP8021q && skb.half 12 = ethPIp &&
    !skb.hasSa s.scdbMac && s.scdbEntry.isSome

/-- `rtw_br_client_tx`: the frame that is handed on for 0, none for -1. -/
def rtwBrClientTx (s : Adapter) (skb : Skb) : Option Skb × Adapter :=
  let (outcome, s) :=
    if fastPath b s skb then
      (.goesOn (skb.setSa b.own),
        s.scdbEntry.elim s fun ptr => s.writeEntry ptr fun db => { db with ageingTimer := b.now })
    else slowPath b s skb
  match outcome with
  -- the source is compared with the own address: equal is an untransformed frame
  | .goesOn skb => (if skb.hasSa b.own then none else some skb, s)
  | .warned skb => (some skb, s)
  | .dropped => (none, s)

/-- What the table says, if it is asked. -/
def verdict (s : Adapter) (skb : Skb) : Outcome := (askNat25 b (vlanHdr skb) (scdbUpdate b s (cut skb)) (cut skb)).1

/-! ## When it is right -/

/-- The table has to be asked, and it or the memory refuses: the source cannot be translated. -/
def Refused (s : Adapter) (skb : Skb) : Prop :=
  fastPath b s skb = false ∧ doNat25 b s (cut skb) = true ∧ verdict b s skb = .dropped

/-- **What the answer is to say.** -/
structure Right (s : Adapter) (skb : Skb) : Prop where
  sent : ∀ out, (rtwBrClientTx b s skb).1 = some out → out.hasSa b.own ∧ out.tags = skb.tags
  dropped : (rtwBrClientTx b s skb).1 = none → Refused b s skb
  fast : fastPath b s skb → skb.hasSa s.scdbMac ∧ (slowPath b s skb).1 = .goesOn (skb.setSa b.own)

theorem hasSa_iff {skb : Skb} {mac : MacAddr} :
    skb.hasSa mac = true ↔ ∀ i < 6, skb.mem (skb.data + 6 + i) = macByte mac i := by
  simp [Skb.hasSa]

theorem dhcpFlagBcast_head {e : ByteOrder} {d : Bool} {m : ByteMem} {i : ℕ} (hi : i < 14) :
    Br.dhcpFlagBcast e d m i = m i := by
  have hwrite : ∀ (m : ByteMem) (a : ℕ) (w : BitVec 16), 14 ≤ a → e.write16 m a w i = m i := fun m a w ha => by
    cases e <;> exact (if_neg (by omega)).trans (if_neg (by omega))
  simp only [Br.dhcpFlagBcast]
  split_ifs
  any_goals rfl
  rw [hwrite _ _ _ (by unfold checkAt udpAt ethHlen; omega), hwrite _ _ _ (by unfold flagsAt udpAt ethHlen; omega)]

theorem foldl_copy16_other {dst src : ℕ → ℕ} {x : ℕ} (l : List ℕ) (m : ByteMem)
    (h : ∀ i ∈ l, dst i + 1 < x) : l.foldl (fun m i => copy16 m (dst i) (src i)) m x = m x := by
  induction l generalizing m with
  | nil => rfl
  | cons i l ih =>
    have hi := h i (by simp)
    exact (ih _ fun j hj => h j (by simp [hj])).trans ((if_neg (by omega)).trans (if_neg (by omega)))

theorem foldl_copy16_move {a : ℕ} (m : ByteMem) (n x : ℕ) : (List.range n).foldl
    (fun m i => copy16 m (a + 2 * i) (a + 4 + 2 * i)) m x = if a ≤ x ∧ x < a + 2 * n then m (x + 4) else m x := by
  induction n generalizing x with
  | zero => rw [if_neg (by omega)]; rfl
  | succ n ih =>
    rw [List.range_succ, List.foldl_append]
    simp only [List.foldl_cons, List.foldl_nil, copy16, ih]
    split_ifs <;> first | rfl | omega | (congr 1; omega)

theorem pushTag_mem {skb : Skb} {hdr : BitVec 16} {x : ℕ} (h : x < skb.data - 4 + 12 ∨ skb.data - 4 + 16 ≤ x) :
    (skb.pushTag hdr).mem x =
      if skb.data - 4 ≤ x ∧ x < skb.data - 4 + 12 then skb.mem (x + 4) else skb.mem x := by
  refine Eq.trans ?_ (foldl_copy16_move skb.mem 6 x)
  simp only [Skb.pushTag, ByteOrder.write16]
  rw [if_neg (by omega), if_neg (by omega), if_neg (by omega), if_neg (by omega)]

theorem pushTag_hasSa {skb : Skb} {hdr : BitVec 16} {mac : MacAddr} (hdata : 4 ≤ skb.data) (h : skb.hasSa mac = true) :
    (skb.pushTag hdr).hasSa mac = true := by
  rw [hasSa_iff] at h ⊢
  intro i hi
  have hat : (skb.pushTag hdr).data + 6 + i = skb.data - 4 + 6 + i := rfl
  have hback : skb.data - 4 + 6 + i + 4 = skb.data + 6 + i := by omega
  rw [hat, pushTag_mem (.inl (by omega)), if_pos (by omega), hback]
  exact h i hi

theorem setSa_hasSa (skb : Skb) (mac : MacAddr) : (skb.setSa mac).hasSa mac = true := hasSa_iff.mpr fun i hi => by
  have hin : skb.data + 6 ≤ skb.data + 6 + i ∧ skb.data + 6 + i < skb.data + 12 := by omega
  exact (if_pos hin).trans (congrArg (macByte mac) (Nat.add_sub_cancel_left ..))

theorem dhcpFlagBcast_hasSa {skb : Skb} {e : ByteOrder} {d : Bool} {mac : MacAddr} (h : skb.hasSa mac = true) :
    (skb.dhcpFlagBcast e d).hasSa mac = true := hasSa_iff.mpr fun i hi => by
  have hout : ¬ skb.data + 6 + i < skb.data := by omega
  have hhead : skb.data + 6 + i - skb.data < 14 := by omega
  have hat : skb.data + (skb.data + 6 + i - skb.data) = skb.data + 6 + i := by omega
  exact (if_neg hout).trans ((dhcpFlagBcast_head hhead).trans ((congrArg skb.mem hat).trans (hasSa_iff.mp h i hi)))

theorem restore_hasSa {skb : Skb} {tag : Option (BitVec 16)} (hdata : tag.isSome → 4 ≤ skb.data) :
    (restore tag ((skb.setSa b.own).dhcpFlagBcast b.order b.dhcpBcstDisable)).hasSa b.own = true := by
  have hsa := dhcpFlagBcast_hasSa (e := b.order) (d := b.dhcpBcstDisable) (setSa_hasSa skb b.own)
  cases tag with
  | none => exact hsa
  | some hdr => exact pushTag_hasSa (hdata rfl) hsa

theorem tagsFrom_congr {m m' : ByteMem} {a : ℕ} (h : ∀ x, a ≤ x → m x = m' x) (n : ℕ) :
    Skb.tags.tagsFrom m a n = Skb.tags.tagsFrom m' a n := by
  induction n generalizing a with
  | zero => rfl
  | succ n ih =>
    unfold Skb.tags.tagsFrom be16
    rw [h a le_rfl, h (a + 1) (by omega), h (a + 2) (by omega), h (a + 2 + 1) (by omega), ih fun x hx => h x (by omega)]

theorem pullTag_tags (skb : Skb) : skb.pullTag.tags = Skb.tags.tagsFrom skb.mem (skb.data + 16) ((skb.len - 4) / 4) :=
  tagsFrom_congr (fun _ hx => foldl_copy16_other _ _ fun i _ => by
    have : skb.data + 4 + 12 ≤ _ := hx
    omega) _

theorem pushTag_pullTag_tags {skb : Skb} {hdr : BitVec 16} (hdata : 4 ≤ skb.data) :
    (skb.pushTag hdr).pullTag.tags = skb.tags := by
  have hback : (skb.pushTag hdr).data + 16 = skb.data + 12 := by
    show skb.data - 4 + 16 = _
    omega
  rw [pullTag_tags, hback]
  refine tagsFrom_congr (fun x hx => ?_) _
  rw [pushTag_mem (.inr (by omega)), if_neg (by omega)]

variable {b} {s s' : Adapter} {skb skb' : Skb} {tag : Option (BitVec 16)}

/-- What is left of a frame when the table has been asked. -/
structure Same (tag : Option (BitVec 16)) (skb skb' : Skb) : Prop where
  data : skb'.data = skb.data
  tags : skb'.tags = skb.tags
  sa : tag = none → ∀ mac, skb'.hasSa mac = skb.hasSa mac

theorem handle_same (method : Nat25Method) (s : Adapter) (skb : Skb) : Same tag skb (b.nat25.handle method s skb).2.2 :=
  ⟨b.nat25.data_eq method s skb, b.nat25.tags_eq method s skb, fun _ mac => b.nat25.sa_eq method s skb mac⟩

theorem Same.trans {skb₁ skb₂ : Skb} (h : Same tag skb skb₁) (h' : Same tag skb₁ skb₂) : Same tag skb skb₂ :=
  ⟨h'.data.trans h.data, h'.tags.trans h.tags, fun ht mac => (h'.sa ht mac).trans (h.sa ht mac)⟩

theorem checked_same (hdata : tag.isSome → 4 ≤ skb.data) (h : checked b tag s skb = some (s', skb')) : Same tag skb skb' := by
  have hsame : Same tag skb (b.nat25.handle .check s skb).2.2 := handle_same .check s skb
  unfold checked at h
  simp only at h
  split at h
  · split at h
    · obtain ⟨-, rfl⟩ := Prod.mk.inj (Option.some.inj h)
      cases tag with
      | none => exact hsame
      | some hdr =>
        have hback := hsame.data.trans_ge (hdata rfl)
        exact hsame.trans ⟨Nat.sub_add_cancel hback, pushTag_pullTag_tags hback, nofun⟩
    · cases h
  · obtain ⟨-, rfl⟩ := Prod.mk.inj (Option.some.inj h)
    exact hsame

theorem askNat25_same (hdata : tag.isSome → 4 ≤ skb.data) (h : (askNat25 b tag s skb).1.frame = some skb') :
    Same tag skb skb' := by
  unfold askNat25 at h
  split at h
  · cases h
  rename_i s₁ skb₁ hchecked
  have hins := (checked_same hdata hchecked).trans (handle_same (b := b) .insert s₁ skb₁)
  split at h
  · simp only at h
    split_ifs at h
    · cases h
    · cases h
      exact hins
    · cases h
      exact hins
  · cases h

theorem cut_data (hdr : (vlanHdr skb).isSome) : 4 ≤ (cut skb).data := by
  unfold cut
  rw [if_pos hdr]
  exact Nat.le_add_left 4 skb.data

variable (b s skb) in
/-- The table has a warning for a frame without a tag that has the own address already. -/
def Untouched : Prop :=
  fastPath b s skb = false ∧ doNat25 b s (cut skb) = true ∧
    (∃ out, verdict b s skb = .warned out) ∧ vlanHdr skb = none ∧ skb.hasSa b.own = true

section Slow

variable (hfast : fastPath b s skb = false)
include hfast

theorem tx_translated (h : doNat25 b s (cut skb) = true → verdict b s skb = .goesOn skb') :
    (rtwBrClientTx b s skb).1 = none := by
  unfold verdict at h
  simp only [rtwBrClientTx, hfast, slowPath]
  by_cases hask : doNat25 b s (cut skb) = true
  · have hdata : (vlanHdr skb).isSome → 4 ≤ skb'.data := fun hdr =>
      (cut_data hdr).trans_eq (askNat25_same cut_data (by rw [h hask]; rfl)).data.symm
    simp [hask, h hask, restore_hasSa b hdata]
  · simp [hask, restore_hasSa b cut_data]

theorem tx_asked (hask : doNat25 b s (cut skb) = true) (h : ∀ skb', verdict b s skb ≠ .goesOn skb') :
    (rtwBrClientTx b s skb).1 = (verdict b s skb).frame := by
  unfold verdict at h ⊢
  simp only [rtwBrClientTx, hfast, slowPath, hask]
  cases hout : (askNat25 b (vlanHdr skb) (scdbUpdate b s (cut skb)) (cut skb)).1 with
  | goesOn skb' => exact absurd hout (h skb')
  | warned skb' => simp [hout, Outcome.frame]
  | dropped => simp [hout, Outcome.frame]

end Slow

theorem cut_tags_iff (hlen : 14 ≤ skb.len) : (cut skb).tags = skb.tags ↔ vlanHdr skb = none := by
  obtain ⟨n, hn⟩ : ∃ n, skb.len / 4 = n + 1 := ⟨skb.len / 4 - 1, by omega⟩
  by_cases hdr : skb.half 12 = ethP8021q
  · have hcut : cut skb = skb.pullTag := by simp [cut, vlanHdr, hdr]
    have htags : skb.tags = skb.half 14 :: skb.pullTag.tags := by
      rw [pullTag_tags, show (skb.len - 4) / 4 = n by omega, Skb.tags, hn, Skb.tags.tagsFrom]
      exact if_pos hdr
    rw [hcut, htags]
    simp [vlanHdr, hdr]
  · simp [cut, vlanHdr, hdr]

/-- **The answer is right** only for a frame that is not translated. -/
theorem client_tx_right_iff (b : BrEnv) (s : Adapter) (skb : Skb) (hlen : 14 ≤ skb.len) :
    Right b s skb ↔ Refused b s skb ∨ Untouched b s skb := by
  by_cases hfast : fastPath b s skb = true
  · refine ⟨fun h => ?_, fun h => ?_⟩
    · have hsa := (h.fast hfast).1
      simp [fastPath, hsa] at hfast
    · exact absurd hfast (by rw [h.elim (·.1) (·.1)]; decide)
  rw [Bool.not_eq_true] at hfast
  by_cases htr : ∃ skb', doNat25 b s (cut skb) = true → verdict b s skb = .goesOn skb'
  · obtain ⟨skb', htr⟩ := htr
    refine ⟨fun h => .inl (h.dropped (tx_translated hfast htr)), ?_⟩
    rintro (⟨-, hask, hout⟩ | ⟨-, hask, ⟨out, hout⟩, -⟩)
    · cases hout.symm.trans (htr hask)
    · cases hout.symm.trans (htr hask)
  · have hask : doNat25 b s (cut skb) = true := by
      by_contra hask
      exact htr ⟨skb, fun h => absurd h hask⟩
    have htx := tx_asked hfast hask fun skb' hout => htr ⟨skb', fun _ => hout⟩
    cases hout : verdict b s skb with
    | goesOn skb' => exact absurd ⟨skb', fun _ => hout⟩ htr
    | dropped =>
      rw [hout] at htx
      refine ⟨fun _ => .inl ⟨hfast, hask, hout⟩, fun _ => ⟨fun out h => ?_, fun _ => ⟨hfast, hask, hout⟩, fun h => ?_⟩⟩
      · cases htx.symm.trans h
      · rw [hfast] at h
        cases h
    | warned out =>
      have hsame : Same (vlanHdr skb) (cut skb) out := askNat25_same cut_data (congrArg Outcome.frame hout)
      rw [hout] at htx
      constructor
      · intro h
        obtain ⟨hsa, htags⟩ := h.sent out htx
        have hdr := (cut_tags_iff hlen).mp (hsame.tags.symm.trans htags)
        refine .inr ⟨hfast, hask, ⟨out, hout⟩, hdr, ?_⟩
        rw [← hsa, hsame.sa hdr, cut, hdr]
        rfl
      · rintro (⟨-, -, h⟩ | ⟨-, -, -, hdr, hsa⟩)
        · cases hout.symm.trans h
        · refine ⟨fun out' h => ?_, fun h => ?_, fun h => ?_⟩
          · cases htx.symm.trans h
            refine ⟨?_, hsame.tags.trans ((cut_tags_iff hlen).mpr hdr)⟩
            rw [hsame.sa hdr, cut, hdr]
            exact hsa
          · cases htx.symm.trans h
          · rw [hfast] at h
            cases h

/-- A table that answers `res` to an insert, and leaves the frame alone. -/
def answering (res : ℤ) : BrEnv where
  own := 0x00e04c885202
  brMac := 0
  brPort := true
  now := 0
  order := .little
  dhcpBcstDisable := false
  copyOk := true
  linearizeOk := true
  nat25 :=
    { handle := fun method s skb => (match method with | .check => 1 | .insert => res, s, skb)
      data_eq := fun _ _ _ => rfl
      sa_eq := fun _ _ _ _ => rfl
      tags_eq := fun _ _ _ => rfl }

/-- The adapter before any client. -/
def emptyTable : Adapter := ⟨fun _ => [], 0, none, 0⟩

/-- A frame of zeros, whose type is none of IP and 802.1Q. -/
def zeroFrame : Skb := ⟨fun _ => 0, 0, 60⟩

theorem client_tx_right_refused : Right (answering (-2)) emptyTable zeroFrame :=
  (client_tx_right_iff (answering (-2)) emptyTable zeroFrame (by decide)).mpr (.inl ⟨rfl, rfl, rfl⟩)

/-- A frame that is translated is dropped. -/
theorem client_tx_not_right :
    ¬ ∀ (b : BrEnv) (s : Adapter) (skb : Skb), 14 ≤ skb.len → Right b s skb := by
  intro h
  have hdrop := (h (answering 0) emptyTable zeroFrame (by decide)).dropped (tx_translated rfl fun _ => rfl)
  cases hdrop.2.2

end Rtl8852cu.Br.ClientTx
