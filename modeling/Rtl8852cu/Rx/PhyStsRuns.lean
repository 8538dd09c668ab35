import Rtl8852cu.Rx.PhySts
import Rtl8852cu.Lib.Reach

/-!
# The order of the packets

`PstsRun` numbers the packets as they are received and remembers which of them waited.  At most the queue of `cur_ppdu_cnt` has
packets (`QueueInv`); a packet that waits goes behind them, one that does not is indicated at once and overtakes them
(`Overtakes`).
-/

namespace Rtl8852cu.Rx

open Lib
open Function (update update_self update_of_ne update_eq_self)

/-- What happens to the status of packets. -/
inductive PstsEvent
  | wifi (pkt : StsPkt)
  | ppduStatus (env : RssiEnv) (sts : StsPkt)
  | handleQueuedRx
  | initPpduStsPara (enPstsPerPkt pstsAmpdu : Bool) (rxFltr : UInt8)
  | setPpduSts (band : HwBand) (en : Bool)

/-- The state of a run: the packets received, numbered in their order, with whether they waited. -/
structure PstsRun where
  info : PstsInfo
  received : List (StsPkt × Bool)

namespace PstsRun

/-- The number of the packet that is received next. -/
def numbered (r : PstsRun) (pkt : StsPkt) : StsPkt := { pkt with id := r.received.length }

def step (r : PstsRun) : PstsEvent → PstsRun
  | .wifi pkt =>
    { info := r.info.rxWifi (r.numbered pkt)
      received := r.received ++ [(r.numbered pkt, (r.info.procWaitPhySts (r.numbered pkt)).1)] }
  | .ppduStatus env sts => { r with info := r.info.procPhySts env sts }
  | .handleQueuedRx => { r with info := r.info.handlePpduStsQ }
  | .initPpduStsPara en ampdu rxFltr =>
    { r with info := { r.info with enPstsPerPkt := en, pstsAmpdu := ampdu, ppduStsFilter := rxFltr } }
  | .setPpduSts band en => { r with info := { r.info with enPpduSts := update r.info.enPpduSts band en } }

end PstsRun

namespace PstsInfo

variable {s s' : PstsInfo} {band : HwBand} {i : ℕ}

def parked (band : HwBand) (s : PstsInfo) : List StsPkt := s.frames band (s.curPpduCnt band).toNat

/-- The packets of a band that have been indicated. -/
def done (band : HwBand) (s : PstsInfo) : List StsPkt := s.indicated.filter (·.band = band)

/-- The queues: packets wait in that of `cur_ppdu_cnt` only. -/
structure QueueInv (s : PstsInfo) : Prop where
  bound : ∀ band, (s.curPpduCnt band).toNat < maxPpduCnt
  one : ∀ band i, s.frames band i ≠ [] → i = (s.curPpduCnt band).toNat
  member : ∀ band, ∀ pkt ∈ s.parked band, pkt.band = band ∧ pkt.mdata.ppduCnt = s.curPpduCnt band

theorem QueueInv.frames_nil (h : s.QueueInv) (hne : i ≠ (s.curPpduCnt band).toNat) : s.frames band i = [] :=
  of_not_not fun hn => hne (h.one band i hn)

/-- The state when the packets that wait have been indicated. -/
def flushed (band : HwBand) (s : PstsInfo) : PstsInfo :=
  { s with indicated := s.indicated ++ s.parked band, frames := update s.frames band fun _ => [] }

theorem flushed_frames (s : PstsInfo) (band : HwBand) : (s.flushed band).frames band = fun _ => [] := by
  show update s.frames band (fun _ => []) band = _
  rw [update_self]

theorem setFrames_nil (hnil : s.frames band i = []) : s.setFrames band i [] = s := by
  unfold setFrames
  rw [← hnil, update_eq_self, update_eq_self]

/-! ### Flushing a band -/

theorem procFrameList_nil (hnil : s.frames band i = []) : s.procFrameList band i = s := if_pos hnil

theorem foldl_nil (hnil : ∀ i, s.frames band i = []) (l : List ℕ) : l.foldl (fun s i => s.procFrameList band i) s = s := by
  induction l with
  | nil => rfl
  | cons i l ih =>
    rw [List.foldl_cons, procFrameList_nil (hnil i)]; exact ih

theorem QueueInv.procFrameList_cur (h : s.QueueInv) : s.procFrameList band (s.curPpduCnt band).toNat = s.flushed band := by
  have hupdate : update (s.frames band) (s.curPpduCnt band).toNat [] = fun _ => [] := by
    funext i
    by_cases hi : i = (s.curPpduCnt band).toNat
    · rw [hi, update_self]
    · rw [update_of_ne hi]; exact h.frames_nil hi
  unfold procFrameList flushed parked
  split
  case isTrue hnil =>
    rw [hnil, List.append_nil, ← hupdate, ← hnil, update_eq_self, update_eq_self]
  case isFalse =>
    unfold setFrames
    simp only
    rw [hupdate]

theorem QueueInv.flushBand_eq (h : s.QueueInv) (band : HwBand) : s.flushBand band = s.flushed band := by
  have hfold : ∀ l : List ℕ, (s.curPpduCnt band).toNat ∈ l → l.foldl (fun s i => s.procFrameList band i) s = s.flushed band := by
    intro l
    induction l with
    | nil => exact fun hmem => nomatch hmem
    | cons i l ih =>
      intro hmem
      rw [List.foldl_cons]
      by_cases hi : i = (s.curPpduCnt band).toNat
      · rw [hi, h.procFrameList_cur]
        refine foldl_nil (fun j => ?_) l
        exact congrFun (update_self band (fun _ => []) s.frames) j
      · rw [procFrameList_nil (h.frames_nil hi)]
        exact ih ((List.mem_cons.mp hmem).resolve_left fun he => hi he.symm)
  exact hfold _ (List.mem_range.mpr (h.bound band))

variable {l : List StsPkt}

theorem done_append {f : HwBand → ℕ → List StsPkt} (hl : ∀ pkt ∈ l, pkt.band = band) :
    PstsInfo.done band { s with indicated := s.indicated ++ l, frames := f } = s.done band ++ l := by
  show (s.indicated ++ l).filter _ = s.indicated.filter _ ++ l
  rw [List.filter_append, List.filter_eq_self.mpr fun pkt hpkt => decide_eq_true (hl pkt hpkt)]

variable {other : HwBand}

theorem done_append_ne {f : HwBand → ℕ → List StsPkt} (hl : ∀ pkt ∈ l, pkt.band = band)
    (hne : other ≠ band) : PstsInfo.done other { s with indicated := s.indicated ++ l, frames := f } = s.done other := by
  have hnil : l.filter (·.band = other) = [] :=
    List.filter_eq_nil_iff.mpr fun pkt hpkt he => hne ((of_decide_eq_true he).symm.trans (hl pkt hpkt))
  show (s.indicated ++ l).filter _ = s.indicated.filter _
  rw [List.filter_append, hnil, List.append_nil]

/-- What a step does to a band: packets `out` are indicated and packets `wait` wait. -/
structure BandStep (band : HwBand) (s s' : PstsInfo) (out wait : List StsPkt) : Prop where
  done : s'.done band = s.done band ++ out
  parked : s'.parked band = wait

def SameBand (band : HwBand) (s s' : PstsInfo) : Prop := BandStep band s s' [] (s.parked band)

theorem SameBand.refl (band : HwBand) (s : PstsInfo) : SameBand band s s := ⟨(List.append_nil _).symm, rfl⟩

theorem QueueInv.flushed (h : s.QueueInv) (band : HwBand) : (s.flushed band).QueueInv where
  bound := h.bound
  one := by
    intro other i hne
    refine h.one other i fun hnil => hne ?_
    show update s.frames band _ other i = []
    by_cases hb : other = band
    · rw [hb, update_self]
    · rw [update_of_ne hb]; exact hnil
  member := by
    intro other pkt hpkt
    have hpkt : pkt ∈ update s.frames band (fun _ => []) other (s.curPpduCnt other).toNat := hpkt
    by_cases hb : other = band
    · rw [hb, update_self] at hpkt; exact nomatch hpkt
    · rw [update_of_ne hb] at hpkt; exact h.member other pkt hpkt

theorem QueueInv.flushed_step (h : s.QueueInv) (band : HwBand) : BandStep band s (s.flushed band) (s.parked band) [] where
  done := done_append fun pkt hpkt => (h.member band pkt hpkt).1
  parked := by
    show update s.frames band (fun _ => []) band _ = []
    rw [update_self]

theorem QueueInv.flushed_other (h : s.QueueInv) (hne : other ≠ band) : SameBand other s (s.flushed band) where
  done := (done_append_ne (fun pkt hpkt => (h.member band pkt hpkt).1) hne).trans (List.append_nil _).symm
  parked := congrFun (update_of_ne hne _ s.frames) _

theorem QueueInv.withFrames (h : s.QueueInv) {cnt : UInt8} (hcnt : cnt.toNat < maxPpduCnt)
    (hnil : ∀ i, i ≠ cnt.toNat → s.frames band i = []) (hl : ∀ pkt ∈ l, pkt.band = band ∧ pkt.mdata.ppduCnt = cnt) :
    QueueInv { s.setFrames band cnt.toNat l with curPpduCnt := update s.curPpduCnt band cnt } where
  bound := by
    intro other
    show (update s.curPpduCnt band cnt other).toNat < _
    by_cases hb : other = band
    · rw [hb, update_self]; exact hcnt
    · rw [update_of_ne hb]; exact h.bound other
  one := by
    intro other i hne
    have hne : update s.frames band (update (s.frames band) cnt.toNat l) other i ≠ [] := hne
    show i = (update s.curPpduCnt band cnt other).toNat
    by_cases hb : other = band
    · rw [hb, update_self] at hne ⊢
      refine of_not_not fun hi => hne ?_
      rw [update_of_ne hi]; exact hnil i hi
    · rw [update_of_ne hb] at hne ⊢; exact h.one other i hne
  member := by
    intro other pkt hpkt
    have hpkt : pkt ∈ update s.frames band (update (s.frames band) cnt.toNat l) other
        (update s.curPpduCnt band cnt other).toNat := hpkt
    show pkt.band = other ∧ pkt.mdata.ppduCnt = update s.curPpduCnt band cnt other
    by_cases hb : other = band
    · rw [hb, update_self, update_self, update_self] at hpkt
      rw [hb, update_self]; exact hl pkt hpkt
    · rw [update_of_ne hb, update_of_ne hb] at hpkt
      rw [update_of_ne hb]; exact h.member other pkt hpkt

theorem withFrames_step (s : PstsInfo) (band : HwBand) (cnt : UInt8) (l : List StsPkt) :
    BandStep band s { s.setFrames band cnt.toNat l with curPpduCnt := update s.curPpduCnt band cnt } [] l where
  done := (List.append_nil _).symm
  parked := by
    show update s.frames band (update (s.frames band) cnt.toNat l) band
      (update s.curPpduCnt band cnt band).toNat = l
    rw [update_self, update_self, update_self]

theorem withFrames_other (s : PstsInfo) (cnt : UInt8) (l : List StsPkt) (hne : other ≠ band) :
    SameBand other s { s.setFrames band cnt.toNat l with curPpduCnt := update s.curPpduCnt band cnt } where
  done := (List.append_nil _).symm
  parked := by
    show update s.frames band (update (s.frames band) cnt.toNat l) other
      (update s.curPpduCnt band cnt other).toNat = s.frames other _
    rw [update_of_ne hne, update_of_ne hne]

theorem BandStep.trans {s'' : PstsInfo} {out out' wait wait' : List StsPkt} (h : BandStep band s s' out wait)
    (h' : BandStep band s' s'' out' wait') : BandStep band s s'' (out ++ out') wait' where
  done := by rw [h'.done, h.done, List.append_assoc]
  parked := h'.parked

theorem SameBand.trans {s'' : PstsInfo} (h : SameBand band s s') (h' : SameBand band s' s'') : SameBand band s s'' where
  done := by rw [h'.done, h.done, List.append_nil]
  parked := h'.parked.trans h.parked

/-! ### Packets -/

/-- A packet that does not wait overtakes those of its band that do. -/
def Overtakes (pkt : StsPkt) (s : PstsInfo) : Prop :=
  s.parked pkt.band ≠ [] ∧ (s.enPstsPerPkt = false ∨ maxPpduCnt ≤ pkt.mdata.ppduCnt.toNat ∨ s.enPpduSts pkt.band = false ∨
    s.curPpduCnt pkt.band = pkt.mdata.ppduCnt ∧ s.passesFilter pkt = false)

theorem QueueInv.procWaitPhySts_spec (h : s.QueueInv) (pkt : StsPkt) :
    ∃ ret s', s.procWaitPhySts pkt = (ret, s') ∧ s'.QueueInv ∧ (∀ other, other ≠ pkt.band → SameBand other s s') ∧
      ∃ out wait, BandStep pkt.band s s' out wait ∧ (ret = true → out ++ wait = s.parked pkt.band ++ [pkt] ∧ ¬ s.Overtakes pkt) ∧
        (ret = false → out ++ wait = s.parked pkt.band ∧ (s.Overtakes pkt ↔ wait ≠ [])) := by
  have hskip : (s.enPstsPerPkt = false ∨ maxPpduCnt ≤ pkt.mdata.ppduCnt.toNat ∨ s.enPpduSts pkt.band = false ∨
        s.curPpduCnt pkt.band = pkt.mdata.ppduCnt ∧ s.passesFilter pkt = false) →
      ∃ ret s', (false, s) = (ret, s') ∧ s'.QueueInv ∧ (∀ other, other ≠ pkt.band → SameBand other s s') ∧
        ∃ out wait, BandStep pkt.band s s' out wait ∧ (ret = true → out ++ wait = s.parked pkt.band ++ [pkt] ∧ ¬ s.Overtakes pkt) ∧
          (ret = false → out ++ wait = s.parked pkt.band ∧ (s.Overtakes pkt ↔ wait ≠ [])) := fun hwhy =>
    ⟨false, s, rfl, h, fun other _ => .refl other s, [], s.parked pkt.band, SameBand.refl pkt.band s, nofun,
      fun _ => ⟨rfl, fun ho => ho.1, fun hne => ⟨hne, hwhy⟩⟩⟩
  unfold procWaitPhySts
  by_cases hen : s.enPstsPerPkt = true
  swap
  · rw [Bool.not_eq_true] at hen
    rw [hen]; exact hskip (Or.inl hen)
  by_cases hcnt : maxPpduCnt ≤ pkt.mdata.ppduCnt.toNat
  · rw [hen, if_neg nofun, if_pos hcnt]; exact hskip (Or.inr (Or.inl hcnt))
  by_cases hband : s.enPpduSts pkt.band = true
  swap
  · rw [Bool.not_eq_true] at hband
    rw [hen, hband, if_neg nofun, if_neg hcnt, if_pos (show (!false) = true from rfl)]
    exact hskip (Or.inr (Or.inr (Or.inl hband)))
  rw [hen, hband, if_neg nofun, if_neg hcnt, if_neg nofun]
  have hcnt := Nat.not_le.mp hcnt
  have hnot : (s.curPpduCnt pkt.band = pkt.mdata.ppduCnt → s.passesFilter pkt = true) → ¬ s.Overtakes pkt := by
    rintro hpass ⟨-, ho | ho | ho | ⟨ho, ho'⟩⟩
    · exact nomatch hen.symm.trans ho
    · exact absurd hcnt (Nat.not_lt.mpr ho)
    · exact nomatch hband.symm.trans ho
    · exact nomatch (hpass ho).symm.trans ho'
  by_cases hstart : s.curPpduCnt pkt.band = pkt.mdata.ppduCnt
  · -- within the PPDU
    rw [if_neg (not_not.mpr hstart)]
    split
    case isTrue hfilter =>
      have hcur : update s.curPpduCnt pkt.band pkt.mdata.ppduCnt = s.curPpduCnt := by
        rw [← hstart]; exact update_eq_self _ _
      have hnil : ∀ i, i ≠ pkt.mdata.ppduCnt.toNat → s.frames pkt.band i = [] := fun i hi => h.frames_nil (hstart ▸ hi)
      have hl : ∀ q ∈ s.frames pkt.band pkt.mdata.ppduCnt.toNat ++ [pkt], q.band = pkt.band ∧ q.mdata.ppduCnt = pkt.mdata.ppduCnt := by
        intro q hq
        rcases List.mem_append.mp hq with hq | hq
        · have hmem := h.member pkt.band q
          unfold parked at hmem
          rw [hstart] at hmem; exact hmem hq
        · rw [List.mem_singleton.mp hq]; exact ⟨rfl, rfl⟩
      have hinv := h.withFrames hcnt hnil hl
      have hstep := withFrames_step s pkt.band pkt.mdata.ppduCnt (s.frames pkt.band pkt.mdata.ppduCnt.toNat ++ [pkt])
      have hother := fun other (hne : other ≠ pkt.band) => withFrames_other s pkt.mdata.ppduCnt
        (s.frames pkt.band pkt.mdata.ppduCnt.toNat ++ [pkt]) hne
      rw [hcur] at hinv hstep hother
      refine ⟨true, _, rfl, hinv, hother, [], _, hstep, fun _ => ⟨?_, hnot fun _ => hfilter⟩, nofun⟩
      unfold parked
      rw [hstart]; rfl
    case isFalse hfilter => exact hskip (Or.inr (Or.inr (Or.inr ⟨hstart, (Bool.not_eq_true _).mp hfilter⟩)))
  · -- the start of a PPDU
    rw [if_pos hstart]
    simp only
    rw [h.flushBand_eq]
    have hflushed := h.flushed pkt.band
    have hnil' : ∀ i, (s.flushed pkt.band).frames pkt.band i = [] := congrFun (flushed_frames s pkt.band)
    have hnil : ∀ i, i ≠ pkt.mdata.ppduCnt.toNat → (s.flushed pkt.band).frames pkt.band i = [] := fun i _ => hnil' i
    split
    case isTrue =>
      refine ⟨true, _, rfl, hflushed.withFrames hcnt hnil (l := [pkt]) ?_, fun other hne => (h.flushed_other hne).trans
        (withFrames_other _ _ _ hne), _, _, (h.flushed_step pkt.band).trans (withFrames_step _ _ _ _), fun _ => ⟨?_, hnot fun he => absurd he hstart⟩, nofun⟩
      · intro q hq
        rw [List.mem_singleton.mp hq]; exact ⟨rfl, rfl⟩
      · rw [List.append_nil]
    case isFalse =>
      have hsame : (s.flushed pkt.band).setFrames pkt.band pkt.mdata.ppduCnt.toNat [] = s.flushed pkt.band :=
        setFrames_nil (hnil' pkt.mdata.ppduCnt.toNat)
      have hinv := hflushed.withFrames hcnt hnil (l := []) nofun
      have hstep := withFrames_step (s.flushed pkt.band) pkt.band pkt.mdata.ppduCnt []
      have hother := fun other (hne : other ≠ pkt.band) => withFrames_other (s.flushed pkt.band) pkt.mdata.ppduCnt [] hne
      rw [hsame] at hinv hstep hother
      refine ⟨false, _, rfl, hinv, fun other hne => (h.flushed_other hne).trans (hother other hne), _, _,
        (h.flushed_step pkt.band).trans hstep, nofun, fun _ => ⟨?_, ?_⟩⟩
      · rw [List.append_nil, List.append_nil]
      · exact iff_of_false (hnot fun he => absurd he hstart) fun hne => hne rfl

/-! ### Reports -/

/-- A report whose values may be copied into a packet that waits: it has the counter of the packet, and what the workaround compares is
that of the first packet that waits. -/
def Matches (sts pkt : StsPkt) (s : PstsInfo) : Prop :=
  pkt.band = sts.band ∧ pkt.mdata.ppduCnt = sts.mdata.ppduCnt ∧ ∃ front, (s.parked sts.band).head? = some front ∧ sameReception sts front = true

theorem updatePsts_ids (pstsAmpdu : Bool) (phyInfo : PhyInfo) (l : List StsPkt) :
    (updatePsts pstsAmpdu phyInfo l).map (·.id) = l.map (·.id) := by
  cases l with
  | nil => rfl
  | cons front l =>
    unfold updatePsts
    rw [List.map_cons, List.map_cons]
    cases pstsAmpdu with
    | false => rfl
    | true =>
      rw [if_pos rfl, List.map_map]; rfl

theorem of_mem_updatePsts {pstsAmpdu : Bool} {phyInfo : PhyInfo} {q : StsPkt}
    (hq : q ∈ updatePsts pstsAmpdu phyInfo l) : ∃ pkt ∈ l, q = { pkt with phyInfo := q.phyInfo } := by
  cases l with
  | nil => exact nomatch hq
  | cons front l =>
    rcases List.mem_cons.mp hq with rfl | hq
    · exact ⟨front, List.mem_cons_self, rfl⟩
    · cases pstsAmpdu with
      | false => exact ⟨q, List.mem_cons_of_mem front hq, rfl⟩
      | true =>
        obtain ⟨pkt, hpkt, rfl⟩ := List.mem_map.mp hq
        exact ⟨pkt, List.mem_cons_of_mem front hpkt, rfl⟩

theorem QueueInv.procPhySts_spec (h : s.QueueInv) (env : RssiEnv) (sts : StsPkt) :
    (s.procPhySts env sts).QueueInv ∧ (∀ other, other ≠ sts.band → SameBand other s (s.procPhySts env sts)) ∧
      ∃ out wait, BandStep sts.band s (s.procPhySts env sts) out wait ∧
        (out ++ wait).map (·.id) = (s.parked sts.band).map (·.id) ∧
        ∀ q ∈ out ++ wait, ∃ pkt ∈ s.parked sts.band, q = { pkt with phyInfo := q.phyInfo } ∧
          (q.phyInfo ≠ pkt.phyInfo → s.Matches sts pkt) := by
  have hstay : s.QueueInv ∧ (∀ other, other ≠ sts.band → SameBand other s s) ∧
      ∃ out wait, BandStep sts.band s s out wait ∧ (out ++ wait).map (·.id) = (s.parked sts.band).map (·.id) ∧
        ∀ q ∈ out ++ wait, ∃ pkt ∈ s.parked sts.band, q = { pkt with phyInfo := q.phyInfo } ∧
          (q.phyInfo ≠ pkt.phyInfo → s.Matches sts pkt) :=
    ⟨h, fun other _ => .refl other s, [], s.parked sts.band, SameBand.refl sts.band s, rfl,
      fun q hq => ⟨q, hq, rfl, fun hne => absurd rfl hne⟩⟩
  unfold procPhySts
  split
  · exact hstay
  split
  · exact hstay
  split
  · exact hstay
  simp only
  split
  case h_1 => exact hstay
  case h_2 front l hparked =>
  have hparked : s.parked sts.band = front :: l := hparked
  split
  case isTrue hupt =>
    obtain ⟨hcnt, hsame⟩ := (Bool.and_eq_true _ _).mp hupt
    have hcnt : sts.mdata.ppduCnt = s.curPpduCnt sts.band := of_decide_eq_true hcnt
    set phyInfo := pstsPhyInfo env s.enFakePsts front sts
    set queue := updatePsts s.pstsAmpdu phyInfo (front :: l) with hqueue
    have hmem : ∀ q ∈ queue, ∃ pkt ∈ front :: l, q = { pkt with phyInfo := q.phyInfo } := fun q hq => of_mem_updatePsts hq
    have hcur : update s.curPpduCnt sts.band (s.curPpduCnt sts.band) = s.curPpduCnt := update_eq_self _ _
    have hl : ∀ q ∈ queue, q.band = sts.band ∧ q.mdata.ppduCnt = s.curPpduCnt sts.band := by
      intro q hq
      obtain ⟨pkt, hpkt, he⟩ := hmem q hq
      have hpkt := h.member sts.band pkt (hparked ▸ hpkt)
      rw [he]; exact hpkt
    have hinv := h.withFrames (h.bound sts.band) (fun i hi => h.frames_nil hi) hl
    have hstep := withFrames_step s sts.band (s.curPpduCnt sts.band) queue
    have hother := fun other (hne : other ≠ sts.band) => withFrames_other s (s.curPpduCnt sts.band) queue hne
    rw [hcur] at hinv hstep hother
    have hflush : (s.setFrames sts.band (s.curPpduCnt sts.band).toNat queue).procFrameList sts.band (s.curPpduCnt sts.band).toNat =
        (s.setFrames sts.band (s.curPpduCnt sts.band).toNat queue).flushed sts.band := QueueInv.procFrameList_cur hinv
    rw [hflush]
    refine ⟨QueueInv.flushed hinv sts.band, fun other hne => (hother other hne).trans (QueueInv.flushed_other hinv hne), _, _,
      hstep.trans (QueueInv.flushed_step hinv sts.band), ?_, fun q hq => ?_⟩
    · rw [List.append_nil, List.nil_append, hstep.parked, hqueue, updatePsts_ids, hparked]
    · rw [List.append_nil, List.nil_append, hstep.parked] at hq
      obtain ⟨pkt, hpkt, he⟩ := hmem q hq
      have hmember := h.member sts.band pkt (hparked ▸ hpkt)
      refine ⟨pkt, hparked ▸ hpkt, he, fun _ => ⟨hmember.1, hmember.2.trans hcnt.symm, front, ?_, hsame⟩⟩
      rw [hparked]; rfl
  case isFalse =>
    rw [h.procFrameList_cur]
    refine ⟨h.flushed sts.band, fun other hne => h.flushed_other hne, _, _, h.flushed_step sts.band, ?_, fun q hq => ?_⟩
    · rw [List.append_nil]
    · rw [List.append_nil] at hq; exact ⟨q, hq, rfl, fun hne => absurd rfl hne⟩

/-- A step that keeps the packets of a band in their order, but for their status. -/
def BandKept (band : HwBand) (s s' : PstsInfo) : Prop :=
  ∃ out wait, BandStep band s s' out wait ∧ (out ++ wait).map (·.id) = (s.parked band).map (·.id) ∧
    ∀ q ∈ out ++ wait, ∃ pkt ∈ s.parked band, q = { pkt with phyInfo := q.phyInfo }

theorem SameBand.kept (h : SameBand band s s') : BandKept band s s' := ⟨[], _, h, rfl, fun q hq => ⟨q, hq, rfl⟩⟩

end PstsInfo

/-! ### Runs -/

namespace PstsRun

open PstsInfo

variable {r : PstsRun} {s' : PstsInfo} {band : HwBand}

/-- The packets of a band that were indicated, and those that wait. -/
def line (band : HwBand) (r : PstsRun) : List StsPkt := r.info.done band ++ r.info.parked band

/-- The numbers of the packets of a band that were received. -/
def ids (band : HwBand) (r : PstsRun) : List ℕ := (r.received.filter (·.1.band = band)).map (·.1.id)

/-- Those that waited, or those that did not. -/
def idsOf (waited : Bool) (band : HwBand) (r : PstsRun) : List ℕ :=
  (r.received.filter fun x => x.1.band = band ∧ x.2 = waited).map (·.1.id)

/-- The packets of each band were indicated in the order in which they were received, and the others wait in it. -/
def InOrder (r : PstsRun) : Prop := ∀ band, (r.line band).map (·.id) = r.ids band

structure Inv (r : PstsRun) : Prop where
  queue : r.info.QueueInv
  once : ∀ band, ((r.line band).map (·.id)).Perm (r.ids band)
  waited : ∀ band, (r.idsOf true band).Sublist ((r.line band).map (·.id))
  direct : ∀ band, (r.idsOf false band).Sublist ((r.info.done band).map (·.id))
  same : ∀ band, ∀ q ∈ r.line band, ∃ x ∈ r.received, q = { x.1 with phyInfo := q.phyInfo }
  small : ∀ x ∈ r.received, x.1.id < r.received.length

theorem line_kept (hk : BandKept band r.info s') : (({ r with info := s' } : PstsRun).line band).map (·.id) = (r.line band).map (·.id) := by
  obtain ⟨out, wait, hstep, hids, -⟩ := hk
  unfold line
  simp only
  rw [hstep.done, hstep.parked, List.append_assoc, List.map_append, hids, ← List.map_append]

theorem Inv.kept (h : r.Inv) (hq : s'.QueueInv) (hk : ∀ band, BandKept band r.info s') : ({ r with info := s' } : PstsRun).Inv where
  queue := hq
  once := fun band => by
    rw [line_kept (hk band)]; exact h.once band
  waited := fun band => by
    rw [line_kept (hk band)]; exact h.waited band
  direct := fun band => by
    obtain ⟨out, wait, hstep, -⟩ := hk band
    show (r.idsOf false band).Sublist ((s'.done band).map _)
    rw [hstep.done, List.map_append]; exact (h.direct band).trans (List.sublist_append_left _ _)
  same := by
    intro band q hq
    obtain ⟨out, wait, hstep, -, hmem⟩ := hk band
    have hq : q ∈ s'.done band ++ s'.parked band := hq
    rw [hstep.done, hstep.parked, List.append_assoc] at hq
    rcases List.mem_append.mp hq with hq | hq
    · exact h.same band q (List.mem_append_left _ hq)
    · obtain ⟨pkt, hpkt, he⟩ := hmem q hq
      obtain ⟨x, hx, hpx⟩ := h.same band pkt (List.mem_append_right _ hpkt)
      refine ⟨x, hx, ?_⟩
      rw [he, hpx]
  small := h.small

/-! ### A packet -/

variable {r' : PstsRun} {p : StsPkt} {w : Bool}

theorem ids_append (hr : r'.received = r.received ++ [(p, w)]) (hb : p.band = band) : r'.ids band = r.ids band ++ [p.id] := by
  unfold ids
  rw [hr, List.filter_append, List.filter_cons_of_pos (by exact decide_eq_true hb), List.filter_nil, List.map_append]
  rfl

theorem ids_append_ne (hr : r'.received = r.received ++ [(p, w)]) (hb : p.band ≠ band) : r'.ids band = r.ids band := by
  unfold ids
  rw [hr, List.filter_append, List.filter_cons_of_neg (by rw [decide_eq_true_iff]; exact hb), List.filter_nil, List.append_nil]

theorem idsOf_append (hr : r'.received = r.received ++ [(p, w)]) (hb : p.band = band) : r'.idsOf w band = r.idsOf w band ++ [p.id] := by
  unfold idsOf
  rw [hr, List.filter_append, List.filter_cons_of_pos (by exact decide_eq_true ⟨hb, rfl⟩), List.filter_nil, List.map_append]
  rfl

theorem idsOf_append_ne {v : Bool} (hr : r'.received = r.received ++ [(p, w)]) (hne : p.band ≠ band ∨ w ≠ v) :
    r'.idsOf v band = r.idsOf v band := by
  unfold idsOf
  rw [hr, List.filter_append, List.filter_cons_of_neg, List.filter_nil, List.append_nil]
  rw [decide_eq_true_iff]; exact fun ⟨hb, hw⟩ => hne.elim (fun h => h hb) fun h => h hw

theorem Inv.packet (h : r.Inv) (hr : r'.received = r.received ++ [(p, w)]) (hid : p.id = r.received.length) (hq : r'.info.QueueInv)
    (hother : ∀ other, other ≠ p.band → SameBand other r.info r'.info) {out wait before after : List StsPkt}
    (hstep : BandStep p.band r.info r'.info out wait) (hsplit : before ++ after = r.info.parked p.band)
    (hwaits : w = true → out ++ wait = before ++ after ++ [p])
    (hdirect : w = false → out = before ++ [p] ∧ wait = after) : r'.Inv := by
  have hline : ∀ other, other ≠ p.band → r'.line other = r.line other := fun other hne => by
    unfold line
    rw [(hother other hne).done, (hother other hne).parked, List.append_nil]
  have hself : r'.line p.band = r.info.done p.band ++ (out ++ wait) := by
    unfold line
    rw [hstep.done, hstep.parked, List.append_assoc]
  have hold : r.line p.band = r.info.done p.band ++ (before ++ after) := by
    rw [hsplit]; rfl
  -- the packets of the band, up to the place of the new one
  have hperm : (out ++ wait).Perm (before ++ after ++ [p]) := by
    cases w with
    | true => rw [hwaits rfl]
    | false =>
      obtain ⟨rfl, rfl⟩ := hdirect rfl
      rw [List.append_assoc, List.append_assoc]; exact List.perm_append_comm.append_left before
  have hsub : (before ++ after).Sublist (out ++ wait) := by
    cases w with
    | true =>
      rw [hwaits rfl]; exact List.sublist_append_left _ _
    | false =>
      obtain ⟨rfl, rfl⟩ := hdirect rfl
      exact (List.sublist_append_left before [p]).append (List.Sublist.refl _)
  exact {
    queue := hq
    once := by
      intro band
      by_cases hb : band = p.band
      · subst hb
        have hnew : (r.info.done p.band ++ (before ++ after ++ [p])).map (·.id) = (r.line p.band).map (·.id) ++ [p.id] := by
          rw [hold, ← List.append_assoc, List.map_append]; rfl
        rw [ids_append hr rfl, hself]
        refine ((hperm.append_left (r.info.done p.band)).map (·.id)).trans ?_
        rw [hnew]; exact (h.once p.band).append_right [p.id]
      · rw [ids_append_ne hr fun he => hb he.symm, hline band hb]; exact h.once band
    waited := by
      intro band
      by_cases hb : band = p.band
      · subst hb
        rw [hself]
        have hsub' : ((r.line p.band).map (·.id)).Sublist ((r.info.done p.band ++ (out ++ wait)).map (·.id)) := by
          rw [hold]; exact ((List.Sublist.refl _).append hsub).map _
        cases w with
        | false =>
          rw [idsOf_append_ne (v := true) hr (Or.inr Bool.false_ne_true)]
          exact (h.waited p.band).trans hsub'
        | true =>
          rw [idsOf_append hr rfl, hwaits rfl, ← List.append_assoc, ← hold, List.map_append]
          exact (h.waited p.band).append (List.Sublist.refl _)
      · rw [idsOf_append_ne hr (Or.inl fun he => hb he.symm), hline band hb]; exact h.waited band
    direct := by
      intro band
      by_cases hb : band = p.band
      · subst hb
        rw [hstep.done, List.map_append]
        cases w with
        | true =>
          rw [idsOf_append_ne (v := false) hr (Or.inr Bool.noConfusion)]
          exact (h.direct p.band).trans (List.sublist_append_left _ _)
        | false =>
          rw [idsOf_append hr rfl, (hdirect rfl).1, List.map_append]
          exact (h.direct p.band).append (List.sublist_append_right _ _)
      · rw [idsOf_append_ne hr (Or.inl fun he => hb he.symm), (hother band hb).done, List.append_nil]
        exact h.direct band
    same := by
      intro band q hq
      rw [hr]
      by_cases hb : band = p.band
      · subst hb
        rw [hself] at hq
        have hq : q ∈ r.line p.band ++ [p] := by
          rw [hold, List.append_assoc]
          rcases List.mem_append.mp hq with hq | hq
          · exact List.mem_append_left _ hq
          · exact List.mem_append_right _ (hperm.mem_iff.mp hq)
        rcases List.mem_append.mp hq with hq | hq
        · obtain ⟨x, hx, he⟩ := h.same p.band q hq; exact ⟨x, List.mem_append_left _ hx, he⟩
        · obtain rfl := List.mem_singleton.mp hq
          exact ⟨(q, w), List.mem_append_right _ List.mem_cons_self, rfl⟩
      · rw [hline band hb] at hq
        obtain ⟨x, hx, he⟩ := h.same band q hq
        exact ⟨x, List.mem_append_left _ hx, he⟩
    small := by
      intro x hx
      rw [hr] at hx ⊢
      rw [List.length_append, List.length_singleton]
      rcases List.mem_append.mp hx with hx | hx
      · exact Nat.lt_succ_of_lt (h.small x hx)
      · rw [List.mem_singleton.mp hx]; exact hid ▸ Nat.lt_succ_self _ }

theorem inOrder_packet (h : r.Inv) (ho : r.InOrder) (hr : r'.received = r.received ++ [(p, w)]) (hid : p.id = r.received.length)
    (hother : ∀ other, other ≠ p.band → SameBand other r.info r'.info) {out wait before after : List StsPkt}
    (hstep : BandStep p.band r.info r'.info out wait) (hsplit : before ++ after = r.info.parked p.band)
    (hwaits : w = true → out ++ wait = before ++ after ++ [p])
    (hdirect : w = false → out = before ++ [p] ∧ wait = after) : r'.InOrder ↔ (w = true ∨ after = []) := by
  have hself : r'.line p.band = r.info.done p.band ++ (out ++ wait) := by
    unfold line
    rw [hstep.done, hstep.parked, List.append_assoc]
  have hold : r.line p.band = r.info.done p.band ++ (before ++ after) := by
    rw [hsplit]; rfl
  have hrest : r'.InOrder ↔ (r'.line p.band).map (·.id) = r.ids p.band ++ [p.id] := by
    refine ⟨fun ho' => ?_, fun hband other => ?_⟩
    · rw [← ids_append hr rfl]; exact ho' p.band
    · by_cases hb : other = p.band
      · subst hb
        rw [ids_append hr rfl]; exact hband
      · rw [ids_append_ne hr fun he => hb he.symm]
        unfold line
        rw [(hother other hb).done, (hother other hb).parked, List.append_nil]; exact ho other
  rw [hrest, ← ho p.band, hself, hold]
  cases w with
  | true =>
    refine iff_of_true ?_ (Or.inl rfl)
    rw [hwaits rfl, ← List.append_assoc, List.map_append]; rfl
  | false =>
    obtain ⟨rfl, rfl⟩ := hdirect rfl
    constructor
    · intro he
      refine Or.inr ?_
      simp only [List.map_append, List.append_assoc] at he
      have he := List.append_cancel_left (List.append_cancel_left he)
      cases wait with
      | nil => rfl
      | cons q wait =>
        -- the first packet that waits would have the number of the new one
        have hq : q ∈ r.line p.band := List.mem_append_right _ (hsplit ▸ List.mem_append_right before List.mem_cons_self)
        obtain ⟨x, hx, hqx⟩ := h.same p.band q hq
        have hlt := h.small x hx
        have hid' : p.id = q.id := (List.cons.inj he).1
        rw [← hid, hid', hqx] at hlt; exact absurd hlt (lt_irrefl _)
    · rintro (h | rfl)
      · exact nomatch h
      · rw [List.append_nil, List.append_nil, ← List.append_assoc, List.map_append]; rfl

end PstsRun

end Rtl8852cu.Rx
