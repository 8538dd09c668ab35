import Rtl8852cu.Dispr.Moves

/-!
# The command requests

Where the entries of the pool of requests are, and what their flags say about it.

* `ReqsOk`: every request is idle, waiting, current or in a running function; `token_cnt` counts the
  current one, and a flag is set only where it belongs;
* `InfosOk`: an operation refers to the request it is part of;
* `Move.reqsOk`, `Move.infosOk`: every move keeps both.
-/

namespace Rtl8852cu.Dispr

variable {N : ℕ}

/-! ### The parts of the updated queues -/

namespace TokenQs

variable (t : TokenQs) (o : OpRef) (x : PhlTokenOpInfo) (type : TokenOpType) (data : ℕ)
  {r s : ReqIdx} (f : PhlCmdTokenReqEx → PhlCmdTokenReqEx)

@[simp] theorem onReq_reqIdle : (t.onReq r f).reqIdle = t.reqIdle := rfl
@[simp] theorem onReq_reqWait : (t.onReq r f).reqWait = t.reqWait := rfl
@[simp] theorem onReq_reqHand : (t.onReq r f).reqHand = t.reqHand := rfl
@[simp] theorem onReq_opQ : (t.onReq r f).opQ = t.opQ := rfl
@[simp] theorem onReq_tokenCnt : (t.onReq r f).tokenCnt = t.tokenCnt := rfl
@[simp] theorem onReq_curCmdReq : (t.onReq r f).curCmdReq = t.curCmdReq := rfl
@[simp] theorem onReq_renewReqInfo : (t.onReq r f).renewReqInfo = t.renewReqInfo := rfl
@[simp] theorem onReq_nreq : (t.onReq r f).nreq = t.nreq := rfl
@[simp] theorem onReq_handling : (t.onReq r f).handling = t.handling := rfl
@[simp] theorem onReq_relinked : (t.onReq r f).relinked = t.relinked := rfl
@[simp] theorem onReq_self : (t.onReq r f).reqPool r = f (t.reqPool r) := by simp [onReq]
@[simp] theorem onReq_ne (h : s ≠ r) : (t.onReq r f).reqPool s = t.reqPool s := by
  simp [onReq, h]

/-- The queues of requests, their flags and what they were taken for are the same. -/
structure SameReqs (t t' : TokenQs) : Prop where
  reqIdle : t'.reqIdle = t.reqIdle
  reqWait : t'.reqWait = t.reqWait
  reqHand : t'.reqHand = t.reqHand
  tokenCnt : t'.tokenCnt = t.tokenCnt
  curCmdReq : t'.curCmdReq = t.curCmdReq
  nreq : t'.nreq = t.nreq
  status : ∀ r, (t'.reqPool r).status = (t.reqPool r).status
  req : ∀ r, (t'.reqPool r).req = (t.reqPool r).req
  call : ∀ r, (t'.reqPool r).call = (t.reqPool r).call

theorem SameReqs.refl : SameReqs t t := ⟨rfl, rfl, rfl, rfl, rfl, rfl, fun _ => rfl, fun _ => rfl, fun _ => rfl⟩

theorem SameReqs.trans {t₁ t₂ t₃ : TokenQs} (h : SameReqs t₁ t₂) (h' : SameReqs t₂ t₃) : SameReqs t₁ t₃ where
  reqIdle := h'.reqIdle.trans h.reqIdle
  reqWait := h'.reqWait.trans h.reqWait
  reqHand := h'.reqHand.trans h.reqHand
  tokenCnt := h'.tokenCnt.trans h.tokenCnt
  curCmdReq := h'.curCmdReq.trans h.curCmdReq
  nreq := h'.nreq.trans h.nreq
  status r := (h'.status r).trans (h.status r)
  req r := (h'.req r).trans (h.req r)
  call r := (h'.call r).trans (h.call r)

theorem setInfo_sameReqs : SameReqs t (t.setInfo o x) := by
  rcases o with r | r | _
  · refine ⟨rfl, rfl, rfl, rfl, rfl, rfl, fun s => ?_, fun s => ?_, fun s => ?_⟩
    all_goals rcases eq_or_ne s r with rfl | hs
    all_goals simp [setInfo, *]
  · refine ⟨rfl, rfl, rfl, rfl, rfl, rfl, fun s => ?_, fun s => ?_, fun s => ?_⟩
    all_goals rcases eq_or_ne s r with rfl | hs
    all_goals simp [setInfo, *]
  · exact ⟨rfl, rfl, rfl, rfl, rfl, rfl, fun _ => rfl, fun _ => rfl, fun _ => rfl⟩

@[simp] theorem info_setInfo : (t.setInfo o x).info o = x := by
  cases o <;> simp [info, setInfo]

@[simp] theorem info_setInfo_ne {o o' : OpRef} (h : o' ≠ o) : (t.setInfo o x).info o' = t.info o' := by
  rcases o with r | r | _ <;> rcases o' with s | s | _ <;>
    first
    | exact absurd rfl h
    | rfl
    | by_cases hs : s = r <;> simp_all [info, setInfo]

@[simp] theorem setInfo_opQ : (t.setInfo o x).opQ = t.opQ := by cases o <;> rfl
@[simp] theorem setInfo_handling : (t.setInfo o x).handling = t.handling := by cases o <;> rfl
@[simp] theorem setInfo_relinked : (t.setInfo o x).relinked = t.relinked := by cases o <;> rfl

theorem push_sameReqs : SameReqs t (t.pushBackTokenOpInfo o type data).1 := by
  unfold pushBackTokenOpInfo
  split
  · exact .refl t
  · have h := t.setInfo_sameReqs o ⟨true, some type, data⟩
    exact ⟨h.reqIdle, h.reqWait, h.reqHand, h.tokenCnt, h.curCmdReq, h.nreq, h.status, h.req, h.call⟩

theorem push_handling : (t.pushBackTokenOpInfo o type data).1.handling = t.handling := by
  unfold pushBackTokenOpInfo
  split <;> simp

end TokenQs

open TokenQs

variable {t t' : TokenQs}

theorem Renewed.sameReqs (h : Renewed t t') : SameReqs t t' ∧ t'.handling = t.handling := by
  induction h with
  | refl => exact ⟨.refl _, rfl⟩
  | tail _ hr ih =>
    subst hr; exact ⟨ih.1.trans (push_sameReqs ..), (push_handling ..).trans ih.2⟩

/-! ### Where the requests are -/

/-- The flags of request `r` say where it is. -/
structure FlagsOk (t : TokenQs) (r : ReqIdx) : Prop where
  idle : r ∈ t.reqIdle → (t.reqPool r).status.enq = false ∧ (t.reqPool r).status.prepare = false
  enq : (t.reqPool r).status.enq → r ∈ t.reqWait ∨ r ∈ t.reqHand
  run : (t.reqPool r).status.run → t.curCmdReq = some r
  prepare : (t.reqPool r).status.prepare → r ∈ t.reqHand
  permit : (t.reqPool r).status.lastPermit → t.curCmdReq = some r ∧ (t.reqPool r).status.run = false

structure ReqsOk (t : TokenQs) : Prop where
  parts : (t.reqIdle ++ (t.reqWait ++ t.reqHand ++ t.curCmdReq.toList)).Perm
    (List.finRange maxCmdReqNum)
  count : t.tokenCnt = t.curCmdReq.toList.length
  flags : ∀ r, FlagsOk t r
  called : ∀ r, (t.reqPool r).call < t.nreq
  handled : ∀ o n, t.handling = some (o, n) → n < t.nreq

/-- Request `s` is where it was, with the flags it had. -/
structure Stays (t t' : TokenQs) (s : ReqIdx) : Prop where
  idle : s ∈ t'.reqIdle ↔ s ∈ t.reqIdle
  wait : s ∈ t'.reqWait ↔ s ∈ t.reqWait
  hand : s ∈ t'.reqHand ↔ s ∈ t.reqHand
  cur : t'.curCmdReq = some s ↔ t.curCmdReq = some s
  status : (t'.reqPool s).status = (t.reqPool s).status
  call : (t'.reqPool s).call = (t.reqPool s).call

theorem FlagsOk.stays {s : ReqIdx} (h : FlagsOk t s) (hs : Stays t t' s) : FlagsOk t' s := by
  constructor
  · rw [hs.idle, hs.status]; exact h.idle
  · rw [hs.wait, hs.hand, hs.status]; exact h.enq
  · rw [hs.cur, hs.status]; exact h.run
  · rw [hs.hand, hs.status]; exact h.prepare
  · rw [hs.cur, hs.status]; exact h.permit

namespace ReqsOk

variable {t t' : TokenQs} {r : ReqIdx}

section

variable (h : ReqsOk t)

include h

theorem nodup : (t.reqIdle ++ (t.reqWait ++ t.reqHand ++ t.curCmdReq.toList)).Nodup :=
  h.parts.nodup_iff.2 (List.nodup_finRange _)

theorem not_idle (hr : r ∈ t.reqWait ++ t.reqHand ++ t.curCmdReq.toList) : r ∉ t.reqIdle :=
  fun hi => (List.nodup_append.1 h.nodup).2.2 r hi r hr rfl

theorem not_cur_of_hand (hr : r ∈ t.reqHand) : t.curCmdReq ≠ some r := fun hc =>
  (List.nodup_append.1 (List.nodup_append.1 h.nodup).2.1).2.2 r
    (List.mem_append_right _ hr) r (by simp [hc]) rfl

theorem not_cur_of_wait (hr : r ∈ t.reqWait) : t.curCmdReq ≠ some r := fun hc =>
  (List.nodup_append.1 (List.nodup_append.1 h.nodup).2.1).2.2 r
    (List.mem_append_left _ hr) r (by simp [hc]) rfl

theorem not_wait_of_hand (hr : r ∈ t.reqHand) : r ∉ t.reqWait := fun hw =>
  (List.nodup_append.1 (List.nodup_append.1 (List.nodup_append.1 h.nodup).2.1).1).2.2 r hw r hr rfl

theorem cur_eq_none (hcnt : t.tokenCnt = 0) : t.curCmdReq = none := by
  have hc := h.count
  cases hcur : t.curCmdReq with
  | none => rfl
  | some r => simp [hcur, hcnt] at hc

theorem idle_flags (hr : r ∈ t.reqIdle) : (t.reqPool r).status.enq = false ∧
    (t.reqPool r).status.run = false ∧ (t.reqPool r).status.prepare = false := by
  have hcur : t.curCmdReq ≠ some r := fun hc => h.not_idle (by simp [hc]) hr
  obtain ⟨henq, hprep⟩ := (h.flags r).idle hr
  exact ⟨henq, Bool.eq_false_iff.2 fun hrun => hcur ((h.flags r).run hrun), hprep⟩

theorem change (r : ReqIdx) (hparts : (t'.reqIdle ++ (t'.reqWait ++ t'.reqHand ++ t'.curCmdReq.toList)).Perm
      (t.reqIdle ++ (t.reqWait ++ t.reqHand ++ t.curCmdReq.toList)))
    (hcount : t'.tokenCnt = t'.curCmdReq.toList.length) (hr : FlagsOk t' r)
    (hs : ∀ s ≠ r, Stays t t' s) (hn : t.nreq ≤ t'.nreq) (hcall : (t'.reqPool r).call < t'.nreq)
    (hh : t'.handling = t.handling) : ReqsOk t' where
  parts := hparts.trans h.parts
  count := hcount
  flags s := by
    rcases eq_or_ne s r with rfl | hsr
    · exact hr
    · exact (h.flags s).stays (hs s hsr)
  called s := by
    rcases eq_or_ne s r with rfl | hsr
    · exact hcall
    · rw [(hs s hsr).call]; exact (h.called s).trans_le hn
  handled o n ho := (h.handled o n (hh ▸ ho)).trans_le hn

theorem congr (hs : SameReqs t t') (hh : ∀ o n, t'.handling = some (o, n) → n < t'.nreq) : ReqsOk t' where
  parts := by
    rw [hs.reqIdle, hs.reqWait, hs.reqHand, hs.curCmdReq]; exact h.parts
  count := by
    rw [hs.tokenCnt, hs.curCmdReq]; exact h.count
  flags r := (h.flags r).stays ⟨by rw [hs.reqIdle], by rw [hs.reqWait], by rw [hs.reqHand],
    by rw [hs.curCmdReq], hs.status r, hs.call r⟩
  called r := by
    rw [hs.call, hs.nreq]; exact h.called r
  handled := hh

theorem add {idle : List ReqIdx} (hidle : t.reqIdle = r :: idle)
    {x : PhlCmdTokenReqEx} (hx : x.status = ⟨true, false, false, false, false⟩)
    (hn : x.call = t.nreq) :
    ReqsOk ({ t with reqIdle := idle, reqWait := t.reqWait ++ [r], nreq := t.nreq + 1 }.onReq r
      fun _ => x) := by
  have hperm : (idle ++ (t.reqWait ++ [r] ++ t.reqHand ++ t.curCmdReq.toList)).Perm
      (r :: idle ++ (t.reqWait ++ t.reqHand ++ t.curCmdReq.toList)) := by
    have hmid : (idle ++ t.reqWait ++ r :: (t.reqHand ++ t.curCmdReq.toList)).Perm
        (r :: (idle ++ t.reqWait ++ (t.reqHand ++ t.curCmdReq.toList))) := List.perm_middle
    simpa using hmid
  refine h.change r (hidle ▸ hperm) h.count ⟨?_, ?_, ?_, ?_, ?_⟩ ?_ (Nat.le_succ _) (by simp [hn]) rfl
  · have hnd := h.nodup
    rw [hidle, List.cons_append, List.nodup_cons] at hnd
    exact fun hr => absurd (List.mem_append_left _ hr) hnd.1
  · simp
  · simp [hx]
  · simp [hx]
  · simp [hx]
  · exact fun s hsr => ⟨by simp [hidle, hsr], by simp [hsr], .rfl, .rfl, by simp [hsr], by simp [hsr]⟩

theorem mark {pool : ReqIdx → PhlCmdTokenReqEx}
    (hp : ∀ r, Marked (t.reqPool r) (pool r)) : ReqsOk { t with reqPool := pool } where
  parts := h.parts
  count := h.count
  flags r := by
    constructor <;> simp only [(hp r).enq, (hp r).prepare, (hp r).run, (hp r).lastPermit]
    exacts [(h.flags r).idle, (h.flags r).enq, (h.flags r).run, (h.flags r).prepare, (h.flags r).permit]
  called r := by simpa [(hp r).call] using h.called r
  handled := h.handled

theorem callOf_lt (o : OpRef) : t.callOf o < t.nreq := by
  rcases o with r | r | _
  · exact h.called r
  · exact h.called r
  · exact Nat.zero_lt_of_lt (h.called 0)

theorem takeWait (ht : t.popFrontWaitReq = some (r, t')) : ReqsOk t' := by
  unfold popFrontWaitReq at ht
  cases hw : t.reqWait with
  | nil => simp [hw] at ht
  | cons s wait =>
    simp only [hw, Option.some.injEq, Prod.mk.injEq] at ht
    obtain ⟨rfl, rfl⟩ := ht
    have hsi : s ∉ t.reqIdle := h.not_idle (by simp [hw])
    have hsc : t.curCmdReq ≠ some s := h.not_cur_of_wait (by simp [hw])
    have hperm : (wait ++ s :: t.reqHand).Perm (t.reqWait ++ t.reqHand) :=
      hw ▸ List.perm_middle
    refine h.change s (.append_left _ (.append_right _ hperm)) h.count ⟨?_, ?_, ?_, ?_, ?_⟩ ?_
      le_rfl (by simpa using h.called s) rfl
    · exact fun hr => absurd hr hsi
    · simp
    · exact fun hr => absurd ((h.flags s).run (by simpa using hr)) hsc
    · simp
    · exact fun hr => absurd ((h.flags s).permit (by simpa using hr)).1 hsc
    · exact fun r hrs =>
        ⟨.rfl, by simp [hw, hrs], by simp [hrs], .rfl, by simp [hrs], by simp [hrs]⟩

theorem makeCur (hr : r ∈ t.reqHand) (henq : (t.reqPool r).status.enq = false) (hcnt : t.tokenCnt = 0) :
    ReqsOk { t.onReq r fun ex =>
        { ex with status := { ex.status with run := true, prepare := false } } with
      curCmdReq := some r, tokenCnt := t.tokenCnt + 1, reqHand := t.reqHand.erase r } := by
  have hcur := h.cur_eq_none hcnt
  have hri : r ∉ t.reqIdle := h.not_idle (by simp [hr])
  have hperm : (t.reqHand.erase r ++ [r]).Perm (t.reqHand ++ t.curCmdReq.toList) := by
    rw [hcur, Option.toList_none, List.append_nil]
    exact (List.perm_append_singleton ..).trans (List.perm_cons_erase hr).symm
  have hparts : (t.reqIdle ++ (t.reqWait ++ t.reqHand.erase r ++ [r])).Perm
      (t.reqIdle ++ (t.reqWait ++ t.reqHand ++ t.curCmdReq.toList)) := by
    simpa only [List.append_assoc] using (hperm.append_left t.reqWait).append_left t.reqIdle
  refine h.change r hparts (by simp [hcnt]) ⟨?_, ?_, ?_, ?_, ?_⟩ ?_ le_rfl
    (by simpa using h.called r) rfl
  · exact fun hi => absurd hi hri
  · exact fun henq' => by simp [henq] at henq'
  · exact fun _ => rfl
  · simp
  · intro hp
    have hc := ((h.flags r).permit (by simpa using hp)).1
    simp [hcur] at hc
  · exact fun s hsr => ⟨.rfl, .rfl, List.mem_erase_of_ne hsr, by simp [hcur, hsr.symm], by simp [hsr], by simp [hsr]⟩

theorem editCur (hc : t.curCmdReq = some r) {f : PhlCmdTokenReqEx → PhlCmdTokenReqEx}
    (henq : (f (t.reqPool r)).status.enq = (t.reqPool r).status.enq)
    (hprep : (f (t.reqPool r)).status.prepare = (t.reqPool r).status.prepare)
    (hp : (f (t.reqPool r)).status.lastPermit → (f (t.reqPool r)).status.run = false)
    (hcall : (f (t.reqPool r)).call = (t.reqPool r).call) : ReqsOk (t.onReq r f) := by
  have hri : r ∉ t.reqIdle := h.not_idle (by simp [hc])
  refine h.change r (.refl _) h.count ⟨?_, ?_, ?_, ?_, ?_⟩ ?_ le_rfl
    (by simpa [hcall] using h.called r) rfl
  · exact fun hi => absurd hi hri
  · simpa [henq] using (h.flags r).enq
  · exact fun _ => hc
  · simpa [hprep] using (h.flags r).prepare
  · exact fun hl => ⟨hc, by simpa using hp (by simpa using hl)⟩
  · exact fun s hsr => ⟨.rfl, .rfl, .rfl, .rfl, by simp [hsr], by simp [hsr]⟩

theorem pushIdle (hr : r ∈ t.reqHand) : ReqsOk (t.pushIdle r) := by
  have hperm : ((t.reqIdle ++ [r]) ++ (t.reqWait ++ t.reqHand.erase r ++ t.curCmdReq.toList)).Perm
      (t.reqIdle ++ (t.reqWait ++ t.reqHand ++ t.curCmdReq.toList)) := by
    have hh : (t.reqHand).Perm (r :: t.reqHand.erase r) := List.perm_cons_erase hr
    have hmid : (t.reqWait ++ r :: t.reqHand.erase r).Perm (r :: (t.reqWait ++ t.reqHand.erase r)) :=
      List.perm_middle
    have hall := ((hh.append_left t.reqWait).trans hmid).symm.append_right t.curCmdReq.toList
    simpa only [List.append_assoc, List.cons_append, List.singleton_append, List.nil_append] using
      hall.append_left t.reqIdle
  refine h.change r hperm h.count ⟨?_, ?_, ?_, ?_, ?_⟩ ?_ le_rfl
    (by simpa [TokenQs.pushIdle] using h.called r) rfl
  · simp [TokenQs.pushIdle, ReqStatus.zero]
  · simp [TokenQs.pushIdle, ReqStatus.zero]
  · simp [TokenQs.pushIdle, ReqStatus.zero]
  · simp [TokenQs.pushIdle, ReqStatus.zero]
  · simp [TokenQs.pushIdle, ReqStatus.zero]
  · exact fun s hsr => ⟨by simp [TokenQs.pushIdle, hsr], .rfl, List.mem_erase_of_ne hsr, .rfl,
      by simp [TokenQs.pushIdle, hsr], by simp [TokenQs.pushIdle, hsr]⟩

theorem dropCur (hc : t.curCmdReq = some r) (hrun : (t.reqPool r).status.run = false)
    (hp : (t.reqPool r).status.lastPermit = false) :
    ReqsOk { t with
      tokenCnt := t.tokenCnt - 1, curCmdReq := none, reqHand := t.curCmdReq.toList ++ t.reqHand } := by
  have hri : r ∉ t.reqIdle := h.not_idle (by simp [hc])
  have hcnt : t.tokenCnt - 1 = 0 := by simp [h.count, hc]
  have hperm : (t.reqWait ++ (t.curCmdReq.toList ++ t.reqHand)).Perm
      (t.reqWait ++ (t.reqHand ++ t.curCmdReq.toList)) := .append_left _ List.perm_append_comm
  refine h.change r ?_ hcnt ⟨?_, ?_, ?_, ?_, ?_⟩ ?_ le_rfl (h.called r) rfl
  · simpa only [Option.toList_none, List.append_nil, List.append_assoc] using
      hperm.append_left t.reqIdle
  · exact fun hi => absurd hi hri
  · exact fun _ => .inr (by simp [hc])
  · exact fun hr => by simp [hrun] at hr
  · exact fun _ => by simp [hc]
  · exact fun hl => by simp [hp] at hl
  · intro s hsr; exact ⟨.rfl, .rfl, by simp [hc, hsr], by simp [hc, hsr.symm], rfl, rfl⟩

theorem delWait (hr : r ∈ t.reqWait) : ReqsOk (t.delWaitReq r) := by
  have hri : r ∉ t.reqIdle := h.not_idle (by simp [hr])
  have hrc := h.not_cur_of_wait hr
  have hperm : (t.reqWait.erase r ++ r :: t.reqHand).Perm (t.reqWait ++ t.reqHand) :=
    List.perm_middle.trans ((List.perm_cons_erase hr).symm.append_right t.reqHand)
  refine h.change r (.append_left _ (.append_right _ hperm)) h.count ⟨?_, ?_, ?_, ?_, ?_⟩ ?_ le_rfl
    (h.called r) rfl
  · exact fun hi => absurd hi hri
  · exact fun _ => .inr (by simp [delWaitReq])
  · exact fun hrun => absurd ((h.flags r).run hrun) hrc
  · exact fun _ => by simp [delWaitReq]
  · exact fun hl => absurd ((h.flags r).permit hl).1 hrc
  · exact fun s hsr => ⟨.rfl, List.mem_erase_of_ne hsr, by simp [delWaitReq, hsr], .rfl, rfl, rfl⟩

end

end ReqsOk

/-! ### What the operations refer to -/

def InfoOk : OpRef → PhlTokenOpInfo → Prop
  | .add _, x => x.type = none ∨ x.type = some .addCmdReq
  | .free r, x =>
    x.type = none ∨ (x.type = some .freeCmdReq ∨ x.type = some .cancelCmdReq) ∧ x.data = r
  | .renew, x => x.type = none ∨ x.type = some .renewCmdReq

theorem InfoOk.zero (o : OpRef) : InfoOk o .zero := by
  cases o <;> exact .inl rfl

variable {o : OpRef}

theorem InfoOk.used {x : PhlTokenOpInfo} (h : InfoOk o x) (b : Bool) : InfoOk o { x with used := b } := by
  cases o <;> exact h

/-- Every operation of a dispatcher refers to the request it is part of. -/
def InfosOk (t : TokenQs) : Prop := ∀ o, InfoOk o (t.info o)

theorem InfosOk.setInfo {x : PhlTokenOpInfo} (h : InfosOk t) (hx : InfoOk o x) : InfosOk (t.setInfo o x) := by
  intro o'
  rcases eq_or_ne o' o with rfl | ho
  · simpa using hx
  · simpa [ho] using h o'

theorem InfosOk.push {type : TokenOpType} {data : ℕ} (h : InfosOk t)
    (hx : InfoOk o ⟨true, some type, data⟩) : InfosOk (t.pushBackTokenOpInfo o type data).1 := by
  unfold TokenQs.pushBackTokenOpInfo
  split
  · exact h
  · exact h.setInfo hx

theorem InfosOk.renewed (h : InfosOk t) (hr : Renewed t t') : InfosOk t' := by
  induction hr with
  | refl => exact h
  | tail _ heq ih =>
    subst heq; exact ih.push (.inr rfl)

theorem InfosOk.pool (h : InfosOk t) (hrenew : t'.renewReqInfo = t.renewReqInfo)
    (hadd : ∀ r, (t'.reqPool r).addReqInfo = (t.reqPool r).addReqInfo ∨ (t'.reqPool r).addReqInfo = .zero)
    (hfree : ∀ r, (t'.reqPool r).freeReqInfo = (t.reqPool r).freeReqInfo ∨
      (t'.reqPool r).freeReqInfo = .zero) : InfosOk t' := by
  rintro (r | r | _)
  · rcases hadd r with hr | hr
    · simpa [TokenQs.info, hr] using h (.add r)
    · simpa [TokenQs.info, hr] using InfoOk.zero (.add r)
  · rcases hfree r with hr | hr
    · simpa [TokenQs.info, hr] using h (.free r)
    · simpa [TokenQs.info, hr] using InfoOk.zero (.free r)
  · simpa [TokenQs.info, hrenew] using h .renew

variable {r : ReqIdx} {f : PhlCmdTokenReqEx → PhlCmdTokenReqEx}

theorem InfosOk.onReq (h : InfosOk t) (ha : (f (t.reqPool r)).addReqInfo = (t.reqPool r).addReqInfo)
    (hf : (f (t.reqPool r)).freeReqInfo = (t.reqPool r).freeReqInfo) : InfosOk (t.onReq r f) := by
  refine h.pool rfl (fun s => .inl ?_) fun s => .inl ?_
  all_goals rcases eq_or_ne s r with rfl | hs
  all_goals simp [*]

/-! ### The moves -/

/-- The requests of a dispatcher and their operations. -/
structure TokOk (t : TokenQs) : Prop where
  reqs : ReqsOk t
  infos : InfosOk t

theorem TokOk.push {type : TokenOpType} {data : ℕ} (h : TokOk t)
    (hx : InfoOk o ⟨true, some type, data⟩) : TokOk (t.pushBackTokenOpInfo o type data).1 := by
  refine ⟨h.reqs.congr (push_sameReqs ..) ?_, h.infos.push hx⟩
  rw [push_handling, (push_sameReqs ..).nreq]; exact h.reqs.handled

theorem fillReq_eq (rq : PhlCmdTokenReq) (hr : t.popFrontIdleReq = some (r, t')) : ∃ idle, t.reqIdle = r :: idle ∧
      t'.fillReq r rq = ({ t with
        reqIdle := idle, reqWait := t.reqWait ++ [r], nreq := t.nreq + 1 }.onReq r fun _ =>
          ⟨⟨true, false, false, false, false⟩, rq, .zero, .zero, t.nreq⟩) := by
  unfold popFrontIdleReq at hr
  cases hidle : t.reqIdle with
  | nil => simp [hidle] at hr
  | cons s idle =>
    simp only [hidle, Option.some.injEq, Prod.mk.injEq] at hr
    obtain ⟨rfl, rfl⟩ := hr
    exact ⟨idle, rfl, by
      simp [fillReq, pushBackWaitReq, TokenQs.onReq, PhlCmdTokenReqEx.zero, ReqStatus.zero]⟩

theorem TokOk.fillReq {rq : PhlCmdTokenReq} (h : TokOk t)
    (hr : t.popFrontIdleReq = some (r, t')) : TokOk (t'.fillReq r rq) := by
  obtain ⟨idle, hidle, heq⟩ := fillReq_eq rq hr
  rw [heq]
  refine ⟨h.reqs.add hidle rfl rfl, h.infos.pool rfl (fun s => ?_) fun s => ?_⟩
  all_goals rcases eq_or_ne s r with rfl | hsr
  all_goals simp [*]

theorem TokOk.pushIdle (h : TokOk t) (hr : r ∈ t.reqHand) : TokOk (t.pushIdle r) :=
  ⟨h.reqs.pushIdle hr, InfosOk.onReq h.infos rfl rfl⟩

variable {e : Eng N} {i : Fin 2}

theorem pushBackIdleReq_tok : ((pushBackIdleReq i r e).d i).tok = (e.d i).tok.pushIdle r := by
  simp [pushBackIdleReq]

variable {j : Fin 2}

theorem pushBackIdleReq_tok_ne (h : j ≠ i) : ((pushBackIdleReq i r e).d j).tok = (e.d j).tok := by
  simp [pushBackIdleReq, h]

theorem TokOk.endCur (h : ∀ j, TokOk (e.d j).tok)
    (hr : (e.d i).tok.curCmdReq = some r) (hrun : (e.req i r).status.run = false)
    (hp : (e.req i r).status.lastPermit = false) (j : Fin 2) :
    TokOk ((pushBackIdleReq i r (dropCur i e)).d j).tok := by
  rcases eq_or_ne j i with rfl | hj
  · have hdrop := (h j).reqs.dropCur hr hrun hp
    have htok : TokOk ((dropCur j e).d j).tok := by
      simpa [dropCur] using (⟨hdrop, (h j).infos⟩ : TokOk _)
    rw [pushBackIdleReq_tok]; exact htok.pushIdle (by simp [dropCur, hr])
  · rw [pushBackIdleReq_tok_ne hj]; simpa [dropCur, hj] using h j

theorem TokOk.renewed (h : TokOk t) (hr : Renewed t t') : TokOk t' := by
  obtain ⟨hs, hh⟩ := hr.sameReqs
  exact ⟨h.reqs.congr hs fun o n ho => hs.nreq ▸ h.reqs.handled o n (hh ▸ ho), h.infos.renewed hr⟩

theorem Signals.tokOk {e' : Eng N} (hs : Signals e e') (h : TokOk (e.d j).tok) : TokOk (e'.d j).tok :=
  h.renewed (hs.tok j)

theorem TokOk.onTok {f : TokenQs → TokenQs}
    (h : ∀ j, TokOk (e.d j).tok) (hf : TokOk (e.d i).tok → TokOk (f (e.d i).tok)) :
    TokOk ((e.onTok i f).d j).tok := by
  rcases eq_or_ne j i with rfl | hj
  · simpa using hf (h j)
  · simpa [hj] using h j

theorem TokOk.onReq (h : ∀ j, TokOk (e.d j).tok) (hf : TokOk (e.d i).tok → TokOk ((e.d i).tok.onReq r f)) :
    TokOk ((e.onReq i r f).d j).tok :=
  TokOk.onTok h hf

theorem TokOk.editCur (h : TokOk t) (hc : t.curCmdReq = some r)
    (henq : (f (t.reqPool r)).status.enq = (t.reqPool r).status.enq)
    (hprep : (f (t.reqPool r)).status.prepare = (t.reqPool r).status.prepare)
    (hcall : (f (t.reqPool r)).call = (t.reqPool r).call)
    (ha : (f (t.reqPool r)).addReqInfo = (t.reqPool r).addReqInfo)
    (hf : (f (t.reqPool r)).freeReqInfo = (t.reqPool r).freeReqInfo)
    (hp : (f (t.reqPool r)).status.lastPermit → (f (t.reqPool r)).status.run = false) :
    TokOk (t.onReq r f) :=
  ⟨h.reqs.editCur hc henq hprep hp hcall, h.infos.onReq ha hf⟩

theorem Move.tokOk {e' : Eng N} (hm : Move e e') (h : ∀ j, TokOk (e.d j).tok) (j : Fin 2) : TokOk (e'.d j).tok := by
  cases hm with
  | sendRefused i msg attr sts hr => simpa [logSent] using h j
  | sendDropped i msg attr k idle herr hidle hdrop =>
    simpa [takeDropped, logSent, takeIdle] using h j
  | sendAccepted i msg attr k idle herr hidle hdrop =>
    simp only [Dispr.sendAccepted]
    split <;> simpa [logSent, takeIdle] using h j
  | complete i k hk hf hn hc => simpa [completeMsg] using h j
  | completed i k hk hf => simpa using h j
  | retire i k hk hn hr =>
    rw [(retireMsg_parts e i j k).2.2.1]; exact (abortSignal_signals e i k).tokOk (h j)
  | toWait i k pend wait hp hw => simpa using h j
  | popWait i k q hq => simpa using h j
  | toPend i k hk hf => simpa using h j
  | revise i pool hp => simpa using h j
  | take i k hk => simpa [andBitmaps] using h j
  | stopped i k id pre ret hk hret => simpa using h j
  | answered i k id pre ret hk hret hid => simpa using h j
  | switch i k hk hp => simpa using h j
  | finish i k hk hm => simpa using h j
  | addReq i rq r t hr =>
    have hadd : TokOk ((t.fillReq r rq).pushBackTokenOpInfo (.add r) .addCmdReq r).1 :=
      ((h i).fillReq hr).push (o := .add r) (Or.inr rfl)
    rw [Eng.logEv_d]; exact TokOk.onTok h fun _ => hadd
  | linkReq i r type ht hr =>
    refine TokOk.onTok h fun htok => htok.push ?_
    rcases ht with rfl | rfl
    · exact .inr ⟨.inl rfl, rfl⟩
    · exact .inr ⟨.inr rfl, rfl⟩
  | mark i pool hp =>
    exact TokOk.onTok h fun ht => ⟨ht.reqs.mark hp, ht.infos.pool rfl
      (fun r => .inl (hp r).addReqInfo) fun r => .inl (hp r).freeReqInfo⟩
  | popOp i o q hq =>
    refine TokOk.onTok h fun ht => ⟨ht.reqs.congr ?_ fun o' n ho => ?_, ht.infos⟩
    · exact ⟨rfl, rfl, rfl, rfl, rfl, rfl, fun _ => rfl, fun _ => rfl, fun _ => rfl⟩
    · simp only [Option.some.injEq, Prod.mk.injEq] at ho; exact ho.2 ▸ ht.reqs.callOf_lt o
  | doneOp i o n ho =>
    refine TokOk.onTok h fun ht => ⟨ht.reqs.congr ?_ ?_, ht.infos.setInfo ((ht.infos o).used false)⟩
    · have hs := (e.d i).tok.setInfo_sameReqs o { (e.d i).tok.info o with used := false }
      exact ⟨hs.reqIdle, hs.reqWait, hs.reqHand, hs.tokenCnt, hs.curCmdReq, hs.nreq, hs.status, hs.req, hs.call⟩
    · simp
  | takeReq i r t ht hx =>
    refine TokOk.onTok h fun htok => ⟨htok.reqs.takeWait ht, ?_⟩
    unfold popFrontWaitReq at ht
    cases hw : (e.d i).tok.reqWait with
    | nil => simp [hw] at ht
    | cons s wait =>
      simp only [hw, Option.some.injEq, Prod.mk.injEq] at ht
      obtain ⟨rfl, rfl⟩ := ht
      exact InfosOk.onReq htok.infos rfl rfl
  | makeCur i r hr henq hcnt hc hw hx =>
    rcases eq_or_ne j i with rfl | hj
    · have hcur := (h j).reqs.makeCur hr henq hcnt
      have hinf : InfosOk ((e.d j).tok.onReq r fun ex =>
          { ex with status := { ex.status with run := true, prepare := false } }) :=
        (h j).infos.onReq rfl rfl
      simpa [Dispr.makeCur, Eng.onReq_tok] using (⟨hcur, hinf⟩ : TokOk _)
    · simpa [Dispr.makeCur, hj] using h j
  | acquireFailed i r hr => exact h j
  | stopRun i r hr => exact TokOk.onReq h fun ht => ht.editCur hr rfl rfl rfl rfl rfl (fun _ => rfl)
  | permit i r b hr hrun =>
    exact TokOk.onReq h fun ht => ht.editCur hr rfl rfl rfl rfl rfl (fun _ => hrun)
  | endCur i r hr hrun hp ho =>
    have hend := TokOk.endCur (e := e.logEv (.ended i r e.d)) h hr hrun hp
    split
    · exact hend j
    · exact Signals.tokenComplete.tokOk (hend j)
  | withdraw i r hr =>
    exact TokOk.onTok (e := e.logEv _) h fun ht => ⟨ht.reqs.delWait hr, ht.infos⟩
  | endReq i r hr ho hp =>
    rcases eq_or_ne j i with rfl | hj
    · rw [pushBackIdleReq_tok]; exact (h j).pushIdle hr
    · rw [pushBackIdleReq_tok_ne hj]; exact h j
  | acquire i hx hcnt => exact Signals.clearanceAcquire.tokOk (h j)
  | ready i hc hcnt hw => exact Signals.exclusiveReady.tokOk (h j)
  | gate i hc hcnt => exact Signals.exclusiveReady.tokOk (e := e.logEv _) (h j)
  | tokenComplete i hr hw => exact Signals.tokenComplete.tokOk (h j)
  | misc i f hm ht =>
    rw [Eng.modify_part e i j f (·.tok) ht]; exact h j
  | modules i m hb hm => simpa using h j
  | deregister i id m hb hm => simpa using h j
  | left i => exact h j
  | env env => exact h j

end Rtl8852cu.Dispr
