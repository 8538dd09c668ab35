import Mathlib.Algebra.Ring.Nat
import Mathlib.Data.Finset.Card
import Mathlib.Logic.Function.Basic

/-!
# The block-ack sessions of the HAL

`hal_g6/hal_sta.c`, `rtw_hal_start_ba_session` and `rtw_hal_stop_ba_session`: the sessions that have a standard entry of
the block-ack CAM, with the table `ba_ctl` of who has which entry. Where all are taken, a session of TID 0 or 5 takes
one that has another TID away from its owner.

Whether `rtw_hal_bacam_cfg` succeeds is a function of the number of calls so far; one that fails leaves the CAM as it
was. The statuses that the two functions return are read by nobody and left out. `n` is `max_std_entry_num`.
-/

namespace Rtl8852cu.Rx

open Function (update update_self update_of_ne)

/-- `struct mac_ax_bacam_info` of a valid standard entry. -/
structure BaCamInfo where
  macid : ℕ
  tid : ℕ
  ssn : ℕ
  bmapSize : ℕ
  bandSel : ℕ
  deriving DecidableEq, Repr

/-- `struct bacam_ctrl_t`, the standard entries of the CAM, and the number of calls of `rtw_hal_bacam_cfg` so far. -/
structure BaHal where
  usedMap : ℕ → Bool
  tid : ℕ → ℕ
  macId : ℕ → ℕ
  count : ℕ
  cam : ℕ → Option BaCamInfo
  calls : ℕ

structure BaReq where
  macid : ℕ
  tid : ℕ
  startSeqNum : ℕ
  bufSize : ℕ
  hwBand : ℕ

/-- The size of the bitmap for a buffer. -/
def bmapSize (bufSize : ℕ) : ℕ := if 64 < bufSize then 4 else 0

/-- The entry that `_hal_update_ba_cam` fills for a session, in the fields of `struct mac_ax_bacam_info`. -/
def BaReq.info (q : BaReq) : BaCamInfo where
  macid := q.macid % 2 ^ 8
  tid := q.tid % 2 ^ 4
  ssn := q.startSeqNum % 2 ^ 12
  bmapSize := bmapSize q.bufSize
  bandSel := q.hwBand % 2

namespace BaHal

def init : BaHal := ⟨fun _ => false, fun _ => 0, fun _ => 0, 0, fun _ => none, 0⟩

/-- `_hal_update_ba_cam` of the entry `camid`, which is made invalid where there is no `info`. -/
def updateBaCam (cfg : ℕ → Bool) (camid : ℕ) (info : Option BaCamInfo) (h : BaHal) : Bool × BaHal :=
  if cfg h.calls = true then (true, { h with cam := update h.cam camid info, calls := h.calls + 1 })
  else (false, { h with calls := h.calls + 1 })

def take (h : BaHal) (i macid tid : ℕ) : BaHal :=
  { h with
    usedMap := update h.usedMap i true
    tid := update h.tid i tid
    macId := update h.macId i macid
    count := h.count + 1 }

def free (h : BaHal) (i : ℕ) : BaHal :=
  { h with
    usedMap := update h.usedMap i false
    tid := update h.tid i 0xff
    macId := update h.macId i 0xffff
    count := h.count - 1 }

/-- The search for the standard entry of a session. -/
def find (n : ℕ) (h : BaHal) (macid tid : ℕ) : Option ℕ :=
  (List.range n).find? fun i => h.usedMap i && decide (macid = h.macId i) && decide (tid = h.tid i)

/-- The loop that transfers an existing standard entry to a temp entry. -/
def transfer (cfg : ℕ → Bool) : List ℕ → BaHal → BaHal
  | [], h => h
  | i :: is, h =>
    if h.tid i ≠ 0 ∧ h.tid i ≠ 5 then
      let r := h.updateBaCam cfg i none
      if r.1 = true then r.2.free i else transfer cfg is r.2
    else transfer cfg is h

/-- The rest of `rtw_hal_start_ba_session`, from the search for an unused entry on. -/
def startUnused (n : ℕ) (cfg : ℕ → Bool) (q : BaReq) (h : BaHal) : BaHal :=
  match (List.range n).find? fun i => !h.usedMap i with
  | none => h
  | some i =>
    let r := h.updateBaCam cfg i (some q.info)
    if r.1 = true then r.2.take i q.macid q.tid else r.2

/-- `rtw_hal_start_ba_session`. -/
def start (n : ℕ) (cfg : ℕ → Bool) (q : BaReq) (h : BaHal) : BaHal :=
  match h.find n q.macid q.tid with
  | some i => (h.updateBaCam cfg i (some q.info)).2
  | none =>
    if h.count = n then
      if q.tid = 0 ∨ q.tid = 5 then startUnused n cfg q (transfer cfg (List.range n) h) else h
    else startUnused n cfg q h

/-- `rtw_hal_stop_ba_session`. -/
def stop (n : ℕ) (cfg : ℕ → Bool) (macid tid : ℕ) (h : BaHal) : BaHal :=
  match h.find n macid tid with
  | none => h
  | some i =>
    let r := h.updateBaCam cfg i none
    if r.1 = true then r.2.free i else r.2

/-- The session of an address and a TID. -/
def session (n : ℕ) (h : BaHal) (p : ℕ × ℕ) : Option BaCamInfo := (h.find n p.1 p.2).bind h.cam

def inUse (n : ℕ) (h : BaHal) : Finset ℕ := (Finset.range n).filter fun i => h.usedMap i = true

structure Sane (n : ℕ) (h : BaHal) : Prop where
  count : h.count = (h.inUse n).card
  unique : ∀ i ∈ h.inUse n, ∀ j ∈ h.inUse n, h.macId i = h.macId j → h.tid i = h.tid j → i = j
  cam : ∀ i ∈ h.inUse n, (h.cam i).isSome = true

/-! ### The search -/

variable {n : ℕ} {cfg : ℕ → Bool} {h : BaHal} {i macid tid : ℕ} {q : BaReq}

theorem mem_inUse : i ∈ h.inUse n ↔ i < n ∧ h.usedMap i = true := by
  unfold inUse
  rw [Finset.mem_filter, Finset.mem_range]

theorem find_some (hf : h.find n macid tid = some i) : i ∈ h.inUse n ∧ h.macId i = macid ∧ h.tid i = tid := by
  have hmem := List.mem_of_find?_eq_some hf
  have hp := List.find?_some hf
  simp only [Bool.and_eq_true, decide_eq_true_eq] at hp
  exact ⟨mem_inUse.mpr ⟨List.mem_range.mp hmem, hp.1.1⟩, hp.1.2.symm, hp.2.symm⟩

theorem find_none (hf : h.find n macid tid = none) : ∀ i ∈ h.inUse n, ¬ (h.macId i = macid ∧ h.tid i = tid) := by
  intro i hi ho
  obtain ⟨hlt, hu⟩ := mem_inUse.mp hi
  have hp := List.find?_eq_none.mp hf i (List.mem_range.mpr hlt)
  rw [hu, ho.1, ho.2, decide_eq_true rfl, decide_eq_true rfl] at hp; exact hp rfl

theorem find_own (hs : h.Sane n) (hi : i ∈ h.inUse n) : h.find n (h.macId i) (h.tid i) = some i := by
  cases hf : h.find n (h.macId i) (h.tid i) with
  | none => exact absurd ⟨rfl, rfl⟩ (find_none hf i hi)
  | some j =>
    obtain ⟨hj, hm, ht⟩ := find_some hf
    rw [hs.unique j hj i hi hm ht]

theorem find_eq_some_iff (hs : h.Sane n) : h.find n macid tid = some i ↔ i ∈ h.inUse n ∧ h.macId i = macid ∧ h.tid i = tid := by
  refine ⟨find_some, ?_⟩
  rintro ⟨hi, rfl, rfl⟩
  exact find_own hs hi

theorem unused_some (hs : h.Sane n) (hc : h.count ≠ n) : ∃ i, ((List.range n).find? fun i => !h.usedMap i) = some i := by
  refine Option.isSome_iff_exists.mp ?_
  rw [List.find?_isSome]
  by_contra hno
  push Not at hno
  refine hc ?_
  have hall : h.inUse n = Finset.range n := by
    refine Finset.filter_true_of_mem fun i hi => ?_
    have hu := hno i (List.mem_range.mpr (Finset.mem_range.mp hi))
    simpa using hu
  rw [hs.count, hall, Finset.card_range]

theorem unused_none (hs : h.Sane n) (hc : h.count = n) : ((List.range n).find? fun i => !h.usedMap i) = none := by
  rw [List.find?_eq_none]
  intro i hi hu
  have hcard : (h.inUse n).card = (Finset.range n).card := by rw [← hs.count, hc, Finset.card_range]
  have hall : h.inUse n = Finset.range n := Finset.eq_of_subset_of_card_le (Finset.filter_subset _ _) hcard.ge
  have hmem : i ∈ h.inUse n := by
    rw [hall]; exact Finset.mem_range.mpr (List.mem_range.mp hi)
  rw [(mem_inUse.mp hmem).2] at hu; exact absurd hu nofun

/-! ### The table as a map -/

theorem session_eq_some_iff (hs : h.Sane n) {p : ℕ × ℕ} {e : BaCamInfo} :
    h.session n p = some e ↔ ∃ i ∈ h.inUse n, h.macId i = p.1 ∧ h.tid i = p.2 ∧ h.cam i = some e := by
  unfold session
  rw [Option.bind_eq_some_iff]
  constructor
  · rintro ⟨i, hf, hc⟩
    obtain ⟨hi, hm, ht⟩ := find_some hf
    exact ⟨i, hi, hm, ht, hc⟩
  · rintro ⟨i, hi, hm, ht, hc⟩; exact ⟨i, (find_eq_some_iff hs).mpr ⟨hi, hm, ht⟩, hc⟩

theorem session_isSome (hs : h.Sane n) (p : ℕ × ℕ) : (h.session n p).isSome = (h.find n p.1 p.2).isSome := by
  unfold session
  cases hf : h.find n p.1 p.2 with
  | none => rfl
  | some i =>
    rw [Option.bind_some, hs.cam i (find_some hf).1]; rfl

/-- The entry of a session is filled anew. -/
def refill (h : BaHal) (i c : ℕ) (info : Option BaCamInfo) : BaHal :=
  { h with cam := update h.cam i info, calls := c }

theorem inUse_refill (h : BaHal) (i c : ℕ) (info : Option BaCamInfo) : (h.refill i c info).inUse n = h.inUse n := rfl

theorem refill_cam_self (h : BaHal) (i c : ℕ) (info : Option BaCamInfo) : (h.refill i c info).cam i = info :=
  update_self ..

variable {j : ℕ}

theorem refill_cam (hji : j ≠ i) (c : ℕ) (info : Option BaCamInfo) : (h.refill i c info).cam j = h.cam j :=
  update_of_ne hji ..

theorem sane_refill (hs : h.Sane n) (i c : ℕ) (e : BaCamInfo) : (h.refill i c (some e)).Sane n where
  count := hs.count
  unique := hs.unique
  cam j hj := by
    by_cases hji : j = i
    · rw [hji, refill_cam_self]; rfl
    · rw [refill_cam hji]; exact hs.cam j hj

theorem session_refill (hs : h.Sane n) (hi : i ∈ h.inUse n) (c : ℕ) (e : BaCamInfo) :
    (h.refill i c (some e)).session n = update (h.session n) (h.macId i, h.tid i) (some e) := by
  funext p
  refine Option.ext fun e' => ?_
  rw [session_eq_some_iff (sane_refill hs i c e)]
  by_cases hp : p = (h.macId i, h.tid i)
  · subst hp
    rw [update_self]
    constructor
    · rintro ⟨j, hj, hm, ht, hc⟩
      rw [hs.unique j hj i hi hm ht, refill_cam_self] at hc; exact hc
    · exact fun he => ⟨i, hi, rfl, rfl, he ▸ update_self ..⟩
  · rw [update_of_ne hp, session_eq_some_iff hs]
    refine exists_congr fun j => and_congr_right fun _ => and_congr_right fun hm => and_congr_right fun ht => ?_
    have hji : j ≠ i := by
      rintro rfl
      exact hp (Prod.ext hm.symm ht.symm)
    rw [refill_cam hji]

theorem mem_inUse_free : j ∈ (h.free i).inUse n ↔ j ∈ h.inUse n ∧ j ≠ i := by
  rw [mem_inUse, mem_inUse]
  unfold free
  by_cases hji : j = i
  · subst hji; simp
  · simp [hji]

theorem free_owner (hji : j ≠ i) : (h.free i).macId j = h.macId j ∧ (h.free i).tid j = h.tid j :=
  ⟨update_of_ne hji .., update_of_ne hji ..⟩

theorem inUse_free : (h.free i).inUse n = (h.inUse n).erase i := by
  ext j
  rw [mem_inUse_free, Finset.mem_erase, and_comm]

theorem sane_free (hs : h.Sane n) (hi : i ∈ h.inUse n) (c : ℕ) : ((h.refill i c none).free i).Sane n where
  count := by
    rw [inUse_free, inUse_refill, Finset.card_erase_of_mem hi, ← hs.count]; rfl
  unique j hj k hk hm ht := by
    obtain ⟨hj, hji⟩ := mem_inUse_free.mp hj
    obtain ⟨hk, hki⟩ := mem_inUse_free.mp hk
    rw [(free_owner hji).1, (free_owner hki).1] at hm
    rw [(free_owner hji).2, (free_owner hki).2] at ht; exact hs.unique j hj k hk hm ht
  cam j hj := by
    obtain ⟨hj, hji⟩ := mem_inUse_free.mp hj
    have hcam : ((h.refill i c none).free i).cam j = h.cam j := update_of_ne hji ..
    rw [hcam]; exact hs.cam j hj

theorem session_free (hs : h.Sane n) (hi : i ∈ h.inUse n) (c : ℕ) :
    ((h.refill i c none).free i).session n = update (h.session n) (h.macId i, h.tid i) none := by
  funext p
  refine Option.ext fun e' => ?_
  rw [session_eq_some_iff (sane_free hs hi c)]
  by_cases hp : p = (h.macId i, h.tid i)
  · subst hp
    rw [update_self]
    refine iff_of_false ?_ nofun
    rintro ⟨j, hj, hm, ht, -⟩
    obtain ⟨hj, hji⟩ := mem_inUse_free.mp hj
    rw [(free_owner hji).1] at hm
    rw [(free_owner hji).2] at ht; exact hji (hs.unique j hj i hi hm ht)
  · rw [update_of_ne hp, session_eq_some_iff hs]
    refine exists_congr fun j => ?_
    rw [mem_inUse_free]
    by_cases hji : j = i
    · subst hji
      exact iff_of_false (fun hc => hc.1.2 rfl) fun hc => hp (Prod.ext hc.2.1.symm hc.2.2.1.symm)
    · have hcam : ((h.refill i c none).free i).cam j = h.cam j := update_of_ne hji ..
      rw [(free_owner hji).1, (free_owner hji).2, hcam, and_iff_left hji]; rfl

variable {m t : ℕ}

theorem mem_inUse_take (hi : i < n) : j ∈ (h.take i m t).inUse n ↔ j = i ∨ j ∈ h.inUse n := by
  rw [mem_inUse, mem_inUse]
  unfold take
  by_cases hji : j = i
  · subst hji; simp [hi]
  · simp [hji]

theorem take_owner (hji : j ≠ i) : (h.take i m t).macId j = h.macId j ∧ (h.take i m t).tid j = h.tid j :=
  ⟨update_of_ne hji .., update_of_ne hji ..⟩

theorem take_owner_self : (h.take i m t).macId i = m ∧ (h.take i m t).tid i = t :=
  ⟨update_self .., update_self ..⟩

theorem inUse_take (hi : i < n) : (h.take i m t).inUse n = insert i (h.inUse n) := by
  ext j
  rw [mem_inUse_take hi, Finset.mem_insert]

theorem sane_take (hs : h.Sane n) (hi : i < n) (hu : h.usedMap i = false) (hf : h.find n m t = none) (c : ℕ)
    (e : BaCamInfo) : ((h.refill i c (some e)).take i m t).Sane n where
  count := by
    have hni : i ∉ h.inUse n := fun hi => absurd (hu.symm.trans (mem_inUse.mp hi).2) nofun
    rw [inUse_take hi, inUse_refill, Finset.card_insert_of_notMem hni, ← hs.count]; rfl
  unique j hj k hk hm ht := by
    rcases (mem_inUse_take hi).mp hj with rfl | hj <;> rcases (mem_inUse_take hi).mp hk with rfl | hk
    · rfl
    · by_contra hne
      rw [take_owner_self.1, (take_owner (Ne.symm hne)).1] at hm
      rw [take_owner_self.2, (take_owner (Ne.symm hne)).2] at ht
      exact find_none hf k hk ⟨hm.symm, ht.symm⟩
    · by_contra hne
      rw [take_owner_self.1, (take_owner hne).1] at hm
      rw [take_owner_self.2, (take_owner hne).2] at ht; exact find_none hf j hj ⟨hm, ht⟩
    · have hji : j ≠ i := fun hj' => absurd (hu.symm.trans (mem_inUse.mp (hj' ▸ hj)).2) nofun
      have hki : k ≠ i := fun hk' => absurd (hu.symm.trans (mem_inUse.mp (hk' ▸ hk)).2) nofun
      rw [(take_owner hji).1, (take_owner hki).1] at hm
      rw [(take_owner hji).2, (take_owner hki).2] at ht; exact hs.unique j hj k hk hm ht
  cam j hj := by
    by_cases hji : j = i
    · subst hji
      have hcam : ((h.refill j c (some e)).take j m t).cam j = some e := update_self ..
      rw [hcam]; rfl
    · have hcam : ((h.refill i c (some e)).take i m t).cam j = h.cam j := update_of_ne hji ..
      rw [hcam]; exact hs.cam j (((mem_inUse_take hi).mp hj).resolve_left hji)

theorem session_take (hs : h.Sane n) (hi : i < n) (hu : h.usedMap i = false) (hf : h.find n m t = none) (c : ℕ)
    (e : BaCamInfo) :
    ((h.refill i c (some e)).take i m t).session n = update (h.session n) (m, t) (some e) := by
  funext p
  refine Option.ext fun e' => ?_
  rw [session_eq_some_iff (sane_take hs hi hu hf c e)]
  have hcami : ((h.refill i c (some e)).take i m t).cam i = some e := update_self ..
  have hcam {j : ℕ} (hji : j ≠ i) : ((h.refill i c (some e)).take i m t).cam j = h.cam j :=
    update_of_ne hji ..
  by_cases hp : p = (m, t)
  · subst hp
    rw [update_self]
    constructor
    · rintro ⟨j, hj, hm, ht, hc⟩
      by_cases hji : j = i
      · rw [hji, hcami] at hc; exact hc
      · rw [(take_owner hji).1] at hm
        rw [(take_owner hji).2] at ht
        exact absurd ⟨hm, ht⟩ (find_none hf j (((mem_inUse_take hi).mp hj).resolve_left hji))
    · exact fun he => ⟨i, (mem_inUse_take hi).mpr (.inl rfl), take_owner_self.1, take_owner_self.2, hcami.trans he⟩
  · rw [update_of_ne hp, session_eq_some_iff hs]
    refine exists_congr fun j => ?_
    rw [mem_inUse_take hi]
    by_cases hji : j = i
    · subst hji
      refine iff_of_false (fun hc => ?_) fun hc => absurd (hu.symm.trans (mem_inUse.mp hc.1).2) nofun
      rw [take_owner_self.1, take_owner_self.2] at hc; exact hp (Prod.ext hc.2.1.symm hc.2.2.1.symm)
    · rw [(take_owner hji).1, (take_owner hji).2, hcam hji, or_iff_right hji]; rfl

/-! ### The functions -/

/-- A call of `rtw_hal_bacam_cfg` that failed. -/
def called (h : BaHal) (c : ℕ) : BaHal := { h with calls := c }

theorem sane_called (hs : h.Sane n) (c : ℕ) : (h.called c).Sane n := ⟨hs.count, hs.unique, hs.cam⟩

theorem updateBaCam_ok {info : Option BaCamInfo} (hc : cfg h.calls = true) :
    h.updateBaCam cfg i info = (true, h.refill i (h.calls + 1) info) := if_pos hc

theorem updateBaCam_fail {info : Option BaCamInfo} (hc : ¬ cfg h.calls = true) :
    h.updateBaCam cfg i info = (false, h.called (h.calls + 1)) := if_neg hc

theorem stop_eq (n : ℕ) (cfg : ℕ → Bool) (macid tid : ℕ) (h : BaHal) :
    h.stop n cfg macid tid = match h.find n macid tid with
      | none => h
      | some i => if cfg h.calls = true then (h.refill i (h.calls + 1) none).free i else h.called (h.calls + 1) := by
  unfold stop
  cases hf : h.find n macid tid with
  | none => rfl
  | some i =>
    simp only
    by_cases hc : cfg h.calls = true
    · rw [updateBaCam_ok hc, if_pos hc]; exact if_pos rfl
    · rw [updateBaCam_fail hc, if_neg hc]; exact if_neg nofun

theorem sane_stop (hs : h.Sane n) (cfg : ℕ → Bool) (macid tid : ℕ) : (h.stop n cfg macid tid).Sane n := by
  rw [stop_eq]
  cases hf : h.find n macid tid with
  | none => exact hs
  | some i =>
    simp only
    by_cases hc : cfg h.calls = true
    · rw [if_pos hc]; exact sane_free hs (find_some hf).1 _
    · rw [if_neg hc]; exact sane_called hs _

/-- The first entry of a list that can be made invalid, with the number of the call. -/
def firstVictim (cfg : ℕ → Bool) : List ℕ → ℕ → Option (ℕ × ℕ)
  | [], _ => none
  | i :: is, c => if cfg c = true then some (i, c) else firstVictim cfg is (c + 1)

/-- The entries of a list that the loop may transfer. -/
def victims (h : BaHal) (is : List ℕ) : List ℕ := is.filter fun i => h.tid i ≠ 0 ∧ h.tid i ≠ 5

theorem firstVictim_mem {is : List ℕ} {c : ℕ} {r : ℕ × ℕ} (hr : firstVictim cfg is c = some r) : r.1 ∈ is := by
  induction is generalizing c with
  | nil => cases hr
  | cons j js ih =>
    rw [firstVictim] at hr
    by_cases hc : cfg c = true
    · rw [if_pos hc] at hr
      cases hr
      exact List.mem_cons_self
    · rw [if_neg hc] at hr; exact List.mem_cons_of_mem j (ih hr)

theorem mem_victims {is : List ℕ} : i ∈ h.victims is ↔ i ∈ is ∧ h.tid i ≠ 0 ∧ h.tid i ≠ 5 := by
  unfold victims
  rw [List.mem_filter, decide_eq_true_iff]

theorem transfer_eq (cfg : ℕ → Bool) (is : List ℕ) (h : BaHal) :
    transfer cfg is h = match firstVictim cfg (h.victims is) h.calls with
      | none => h.called (h.calls + (h.victims is).length)
      | some r => (h.refill r.1 (r.2 + 1) none).free r.1 := by
  induction is generalizing h with
  | nil => rfl
  | cons i is ih =>
    unfold transfer
    by_cases ht : h.tid i ≠ 0 ∧ h.tid i ≠ 5
    · have hv : h.victims (i :: is) = i :: h.victims is := List.filter_cons_of_pos (decide_eq_true ht)
      rw [if_pos ht, hv, firstVictim]
      simp only
      by_cases hc : cfg h.calls = true
      · rw [updateBaCam_ok hc, if_pos hc]; exact if_pos rfl
      · rw [updateBaCam_fail hc, if_neg hc]
        simp only [Bool.false_eq_true, if_false]
        rw [ih]
        have hcalls : (h.called (h.calls + 1)).calls = h.calls + 1 := rfl
        have hsame : (h.called (h.calls + 1)).victims is = h.victims is := rfl
        rw [hcalls, hsame]
        cases firstVictim cfg (h.victims is) (h.calls + 1) with
        | none =>
          simp only [called, List.length_cons]
          congr 1
          omega
        | some r => rfl
    · have hv : h.victims (i :: is) = h.victims is := List.filter_cons_of_neg (by simpa using ht)
      rw [if_neg ht, hv, ih]

theorem startUnused_spec (hs : h.Sane n) (cfg : ℕ → Bool) (hf : h.find n q.macid q.tid = none) :
    (h.startUnused n cfg q).Sane n ∧ (h.startUnused n cfg q).session n =
      if h.count ≠ n ∧ cfg h.calls = true then update (h.session n) (q.macid, q.tid) (some q.info)
      else h.session n := by
  unfold startUnused
  by_cases hfull : h.count = n
  · rw [unused_none hs hfull, if_neg fun hc => hc.1 hfull]; exact ⟨hs, rfl⟩
  obtain ⟨i, hi⟩ := unused_some hs hfull
  have hlt : i < n := List.mem_range.mp (List.mem_of_find?_eq_some hi)
  have hu : h.usedMap i = false := by
    have hp := List.find?_some hi
    simpa using hp
  rw [hi]
  simp only
  by_cases hc : cfg h.calls = true
  · rw [updateBaCam_ok hc, if_pos (show (true, h.refill i (h.calls + 1) (some q.info)).1 = true from rfl),
      if_pos ⟨hfull, hc⟩]
    exact ⟨sane_take hs hlt hu hf _ _, session_take hs hlt hu hf _ _⟩
  · rw [updateBaCam_fail hc, if_neg (show ¬ (false, h.called (h.calls + 1)).1 = true from nofun),
      if_neg fun hcc => hc hcc.2]
    exact ⟨sane_called hs _, rfl⟩

theorem start_spec (hs : h.Sane n) (cfg : ℕ → Bool) (hroom : (h.find n q.macid q.tid).isSome = true ∨ h.count ≠ n) :
    (h.start n cfg q).Sane n ∧ (h.start n cfg q).session n =
      if cfg h.calls = true then update (h.session n) (q.macid, q.tid) (some q.info) else h.session n := by
  unfold start
  cases hf : h.find n q.macid q.tid with
  | some i =>
    obtain ⟨hi, hm, ht⟩ := find_some hf
    simp only
    by_cases hc : cfg h.calls = true
    · rw [updateBaCam_ok hc, if_pos hc, ← hm, ← ht]
      exact ⟨sane_refill hs _ _ _, session_refill hs hi _ _⟩
    · rw [updateBaCam_fail hc, if_neg hc]; exact ⟨sane_called hs _, rfl⟩
  | none =>
    rw [hf] at hroom
    have hfull : h.count ≠ n := hroom.resolve_left nofun
    simp only
    rw [if_neg hfull]
    obtain ⟨hsane, hsession⟩ := startUnused_spec (q := q) hs cfg hf
    refine ⟨hsane, hsession.trans ?_⟩
    simp only [ne_eq, hfull, not_false_eq_true, true_and]

theorem start_full (hs : h.Sane n) (cfg : ℕ → Bool) (hf : h.find n q.macid q.tid = none) (hfull : h.count = n) :
    (h.start n cfg q).Sane n ∧
      (¬ (q.tid = 0 ∨ q.tid = 5) ∨ firstVictim cfg (h.victims (List.range n)) h.calls = none →
        (h.start n cfg q).session n = h.session n) ∧
      ∀ r, (q.tid = 0 ∨ q.tid = 5) → firstVictim cfg (h.victims (List.range n)) h.calls = some r →
        r.1 ∈ h.inUse n ∧ h.tid r.1 ≠ q.tid ∧
        (h.start n cfg q).session n =
          let s := Function.update (h.session n) (h.macId r.1, h.tid r.1) none
          if cfg (r.2 + 1) = true then update s (q.macid, q.tid) (some q.info) else s := by
  unfold start
  rw [hf]
  simp only
  rw [if_pos hfull]
  by_cases ht : q.tid = 0 ∨ q.tid = 5
  swap
  · rw [if_neg ht]; exact ⟨hs, fun _ => rfl, fun r ht' => absurd ht' ht⟩
  rw [if_pos ht, transfer_eq]
  cases hv : firstVictim cfg (h.victims (List.range n)) h.calls with
  | none =>
    simp only
    obtain ⟨hsane, hsession⟩ := startUnused_spec (q := q) (sane_called hs (h.calls + _)) cfg hf
    refine ⟨hsane, fun _ => hsession.trans (if_neg fun hc => hc.1 hfull), nofun⟩
  | some r =>
    simp only
    obtain ⟨hmem, hne0, hne5⟩ := mem_victims.mp (firstVictim_mem hv)
    have hcard : (h.inUse n).card = (Finset.range n).card := by rw [← hs.count, hfull, Finset.card_range]
    have hall : h.inUse n = Finset.range n := Finset.eq_of_subset_of_card_le (Finset.filter_subset _ _) hcard.ge
    have hi : r.1 ∈ h.inUse n := by
      rw [hall]; exact Finset.mem_range.mpr (List.mem_range.mp hmem)
    have hne : h.tid r.1 ≠ q.tid := by
      rcases ht with ht | ht
      · rwa [ht]
      · rwa [ht]
    have hf' : ((h.refill r.1 (r.2 + 1) none).free r.1).find n q.macid q.tid = none := by
      cases hg : ((h.refill r.1 (r.2 + 1) none).free r.1).find n q.macid q.tid with
      | none => rfl
      | some j =>
        obtain ⟨hj, hm, htid⟩ := find_some hg
        obtain ⟨hj, hjr⟩ := mem_inUse_free.mp hj
        rw [(free_owner hjr).1] at hm
        rw [(free_owner hjr).2] at htid; exact absurd ⟨hm, htid⟩ (find_none hf j hj)
    have hcount : ((h.refill r.1 (r.2 + 1) none).free r.1).count ≠ n := by
      have hpos : 0 < (h.inUse n).card := Finset.card_pos.mpr ⟨r.1, hi⟩
      have hc : ((h.refill r.1 (r.2 + 1) none).free r.1).count = h.count - 1 := rfl
      have := hs.count
      omega
    obtain ⟨hsane, hsession⟩ := startUnused_spec (q := q) (sane_free hs hi (r.2 + 1)) cfg hf'
    refine ⟨hsane, fun hno => ?_, fun r' _ hr' => ?_⟩
    · rcases hno with hno | hno
      · exact absurd ht hno
      · cases hno
    · obtain rfl := Option.some.inj hr'
      refine ⟨hi, hne, hsession.trans ?_⟩
      rw [session_free hs hi]
      have hcalls : ((h.refill r.1 (r.2 + 1) none).free r.1).calls = r.2 + 1 := rfl
      simp only [hcalls, ne_eq, hcount, not_false_eq_true, true_and]

theorem sane_start (hs : h.Sane n) (cfg : ℕ → Bool) (q : BaReq) : (h.start n cfg q).Sane n := by
  by_cases hroom : (h.find n q.macid q.tid).isSome = true ∨ h.count ≠ n
  · exact (start_spec hs cfg hroom).1
  · obtain ⟨hf, hfull⟩ := not_or.mp hroom
    exact (start_full hs cfg (Option.not_isSome_iff_eq_none.mp hf) (not_not.mp hfull)).1

theorem sane_init (n : ℕ) : init.Sane n where
  count := by
    have hempty : init.inUse n = ∅ := Finset.filter_false_of_mem fun _ _ => nofun
    rw [hempty]; rfl
  unique i hi := absurd (mem_inUse.mp hi).2 nofun
  cam i hi := absurd (mem_inUse.mp hi).2 nofun

end BaHal

end Rtl8852cu.Rx
