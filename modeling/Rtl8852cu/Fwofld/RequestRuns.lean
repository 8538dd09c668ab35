import Rtl8852cu.Fwofld.Request
import Rtl8852cu.Fwofld.Handlers
import Mathlib.Data.Nat.Bitwise

/-!
# What the firmware reads in a list of requests

The buffer of a list, read by the fields that `fwcmd_intf.h` gives the firmware, against the requests that were accepted.
The flags `polling`, `mask_en` and `ls` of a header have bits of their own there (13, 14 and 15), and are all written to
bit 0, which belongs to the length of the value.
-/

namespace Rtl8852cu.Fwofld

open Lib H2c

/-! ### Reading a buffer -/

/-- The entries of a buffer, each read by `parse` where the one before ends. -/
def parseAll {ε : Type*} (parse : List UInt8 → Option (ε × List UInt8)) : ℕ → List UInt8 → Option (List ε)
  | _, [] => some []
  | 0, _ => none
  | n + 1, bytes =>
    match parse bytes with
    | none => none
    | some (e, rest) => (parseAll parse n rest).map (e :: ·)

theorem parseAll_cons {ε : Type*} {parse : List UInt8 → Option (ε × List UInt8)} {n : ℕ} {bytes : List UInt8}
    {es : List ε} (hne : bytes ≠ []) (h : parseAll parse n bytes = some es) :
    ∃ e rest es', parse bytes = some (e, rest) ∧ es = e :: es' := by
  cases bytes with
  | nil => exact absurd rfl hne
  | cons b bytes =>
    cases n with
    | zero => exact nomatch h
    | succ n =>
      unfold parseAll at h
      cases hp : parse (b :: bytes) with
      | none =>
        rw [hp] at h; exact nomatch h
      | some er =>
        rw [hp] at h
        obtain ⟨es', -, rfl⟩ := Option.map_eq_some_iff.mp h
        exact ⟨er.1, er.2, es', rfl, rfl⟩

/-- The requests with the flag of the last one. -/
def flagLast {ε : Type*} : List ε → List (ε × Bool)
  | [] => []
  | [e] => [(e, true)]
  | e :: e' :: es => (e, false) :: flagLast (e' :: es)

/-- A write request with its value and its mask. -/
structure WriteEntry where
  req : WriteReq
  value : List UInt8
  mask : List UInt8
  deriving DecidableEq

/-- `struct fwcmd_write_ofld_req` and what follows it. -/
def readWrite : List UInt8 → Option ((WriteEntry × Bool) × List UInt8)
  | b0 :: b1 :: b2 :: b3 :: b4 :: b5 :: b6 :: b7 :: rest =>
    let dword0 := readLe32 b0 b1 b2 b3
    let dword1 := readLe32 b4 b5 b6 b7
    let valueLen := getField dword0 0 0x7ff
    let maskLen := if dword0.testBit 14 = true then valueLen else 0
    if rest.length < valueLen + maskLen then none
    else some ((⟨⟨Fin.ofNat 2048 valueLen, dword0.testBit 13, dword0.testBit 14,
        UInt8.ofNat (getField dword0 16 0xff), UInt8.ofNat (getField dword0 24 0xff),
        UInt16.ofNat (getField dword1 0 0xffff)⟩,
      rest.take valueLen, (rest.drop valueLen).take maskLen⟩, dword0.testBit 15), rest.drop (valueLen + maskLen))
  | _ => none

/-- `struct fwcmd_read_ofld_req`. -/
def readRead : List UInt8 → Option ((ReadReq × Bool) × List UInt8)
  | b0 :: b1 :: b2 :: b3 :: b4 :: b5 :: b6 :: b7 :: rest =>
    let dword0 := readLe32 b0 b1 b2 b3
    let dword1 := readLe32 b4 b5 b6 b7
    some ((⟨Fin.ofNat 2048 (getField dword0 0 0x7ff), UInt8.ofNat (getField dword0 16 0xff),
      UInt8.ofNat (getField dword0 24 0xff), UInt16.ofNat (getField dword1 0 0xffff)⟩, dword0.testBit 15), rest)
  | _ => none

/-! ### Sequences of calls -/

/-- The arguments of `mac_add_write_request`. -/
structure WriteAdd where
  malloc : Bool
  req : WriteReq
  value : Option (Vector UInt8 req.valueLen.val)
  mask : Option (Vector UInt8 req.valueLen.val)

def WriteAdd.run (a : WriteAdd) (s : ReqOfld) : Ret × ReqOfld := macAddWriteRequest a.malloc a.req a.value a.mask s

def WriteAdd.entry (a : WriteAdd) : WriteEntry :=
  ⟨a.req, bytesAt a.value, if a.req.maskEn = true then bytesAt a.mask else []⟩

/-- The arguments of `mac_add_read_request`. -/
structure ReadAdd where
  malloc : Bool
  req : ReadReq

def ReadAdd.run (a : ReadAdd) (s : ReqOfld) : Ret × ReqOfld := macAddReadRequest a.malloc a.req s

/-- The state, and the requests that were accepted. -/
structure Reqs (ε : Type*) where
  st : ReqOfld
  accepted : List ε

section Runs

variable {α ε : Type*} (run : α → ReqOfld → Ret × ReqOfld) (entry : α → ε)

def Reqs.step (r : Reqs ε) (a : α) : Reqs ε :=
  ⟨(run a r.st).2, if (run a r.st).1 = .success then r.accepted ++ [entry a] else r.accepted⟩

def ReqOfld.usedBytes (s : ReqOfld) : List UInt8 := (s.buf.getD []).take s.usedSize

/-- The firmware reads the accepted requests, and the counters agree. -/
def Reqs.Readable (parse : List UInt8 → Option ((ε × Bool) × List UInt8)) (r : Reqs ε) : Prop :=
  parseAll parse r.st.usedBytes.length r.st.usedBytes = some (flagLast r.accepted) ∧
    r.st.usedSize + r.st.avlBufSize = r.st.bufSize

/-- The buffer is readable after each call, and a refused call leaves the state. -/
def ListCorrect (parse : List UInt8 → Option ((ε × Bool) × List UInt8)) (s : ReqOfld) (calls : List α) : Prop :=
  (∀ pre, pre <+: calls → (pre.foldl (Reqs.step run entry) ⟨s, []⟩).Readable parse) ∧
    ∀ pre a, pre ++ [a] <+: calls → (run a (pre.foldl (Reqs.step run entry) ⟨s, []⟩).st).1 ≠ .success →
      (run a (pre.foldl (Reqs.step run entry) ⟨s, []⟩).st).2 = (pre.foldl (Reqs.step run entry) ⟨s, []⟩).st

variable {run entry} {parse : List UInt8 → Option ((ε × Bool) × List UInt8)} {s : ReqOfld} {Goes : α → Prop}

theorem stuck_run (hstuck : ∀ a, ¬ Goes a → (run a s).1 ≠ .success ∧ (run a s).2 = s) {calls : List α}
    (h : ∀ a ∈ calls, ¬ Goes a) : calls.foldl (Reqs.step run entry) ⟨s, []⟩ = ⟨s, []⟩ := by
  induction calls with
  | nil => rfl
  | cons a calls ih =>
    obtain ⟨hret, hst⟩ := hstuck a (h a List.mem_cons_self)
    have hstep : Reqs.step run entry ⟨s, []⟩ a = ⟨s, []⟩ := by
      unfold Reqs.step
      rw [hst, if_neg hret]
    rw [List.foldl_cons, hstep]; exact ih fun b hb => h b (List.mem_cons_of_mem a hb)

theorem listCorrect_iff (h₀ : Reqs.Readable parse ⟨s, []⟩)
    (hstuck : ∀ a, ¬ Goes a → (run a s).1 ≠ .success ∧ (run a s).2 = s)
    (hfirst : ∀ a, Goes a → ((run a s).1 ≠ .success ∧ (run a s).2 ≠ s) ∨
      ((run a s).1 = .success ∧ ¬ Reqs.Readable parse ⟨(run a s).2, [entry a]⟩)) {calls : List α} :
    ListCorrect run entry parse s calls ↔ ∀ a ∈ calls, ¬ Goes a := by
  constructor
  · rintro ⟨hread, hrefuse⟩
    have hpre : ∀ pre, pre <+: calls → ∀ a ∈ pre, ¬ Goes a := by
      intro pre
      induction pre using List.reverseRecOn with
      | nil => exact fun _ a ha => (nomatch ha)
      | append_singleton pre a ih =>
        intro hpre b hb
        have hold := ih ((List.prefix_append _ _).trans hpre)
        rcases List.mem_append.mp hb with hb | hb
        · exact hold b hb
        rw [List.mem_singleton.mp hb]
        intro hgo
        have hrun : pre.foldl (Reqs.step run entry) ⟨s, []⟩ = ⟨s, []⟩ := stuck_run hstuck hold
        have hread := hread _ hpre
        have hrefuse := hrefuse pre a hpre
        rw [hrun] at hrefuse
        rw [List.foldl_append, hrun] at hread
        rcases hfirst a hgo with ⟨hret, hne⟩ | ⟨hret, hnot⟩
        · exact hne (hrefuse hret)
        · have hstep : Reqs.step run entry ⟨s, []⟩ a = ⟨(run a s).2, [entry a]⟩ := by
            unfold Reqs.step
            rw [if_pos hret, List.nil_append]
          rw [List.foldl_cons, List.foldl_nil, hstep] at hread; exact hnot hread
    exact hpre calls (List.prefix_refl _)
  · intro hno
    refine ⟨fun pre hpre => ?_, fun pre a hpre _ => ?_⟩
    · rw [stuck_run hstuck fun a ha => hno a (hpre.subset ha)]; exact h₀
    · have hold : ∀ b ∈ pre, ¬ Goes b := fun b hb => hno b (hpre.subset (List.mem_append_left _ hb))
      rw [stuck_run hstuck hold]
      exact (hstuck a (hno a (hpre.subset (List.mem_append_right _ (List.mem_singleton_self a))))).2

end Runs

/-! ### The flag of the last request -/

theorem or_lt_word {a b : ℕ} (ha : a < 2 ^ 32) (hb : b < 2 ^ 32) : a ||| b < 2 ^ 32 := Nat.or_lt_two_pow ha hb

theorem setWord_lt {v sh msk : ℕ} {w : ℕ} (hmsk : msk < 2 ^ w) (hw : w + sh ≤ 32) : setWord v sh msk < 2 ^ 32 := by
  unfold setWord
  rw [Nat.shiftLeft_eq]
  have hle : v &&& msk < 2 ^ w := Nat.lt_of_le_of_lt Nat.and_le_right hmsk
  calc (v &&& msk) * 2 ^ sh < 2 ^ w * 2 ^ sh := (Nat.mul_lt_mul_right (Nat.two_pow_pos sh)).mpr hle
    _ = 2 ^ (w + sh) := (Nat.pow_add 2 w sh).symm
    _ ≤ 2 ^ 32 := Nat.pow_le_pow_right (by decide) hw

theorem setWord_testBit {v sh msk i : ℕ} (h : i < sh ∨ msk.testBit (i - sh) = false) :
    (setWord v sh msk).testBit i = false := by
  unfold setWord
  rw [Nat.testBit_shiftLeft, Nat.testBit_and]
  rcases h with hlt | hmsk
  · rw [decide_eq_false (Nat.not_le.mpr hlt), Bool.false_and]
  · rw [hmsk, Bool.and_false, Bool.and_false]

theorem toNat_testBit (b : Bool) : b.toNat.testBit 15 = false := by cases b <;> decide

theorem toNat_lt_word (b : Bool) : b.toNat < 2 ^ 32 := by cases b <;> decide

def writeWord (req : WriteReq) : ℕ :=
  setWord req.valueLen.val 0 0x7ff ||| setWord req.ofldId.toNat 16 0xff ||| setWord req.entryNum.toNat 24 0xff |||
    req.polling.toNat ||| req.maskEn.toNat ||| true.toNat

def readWord (req : ReadReq) : ℕ :=
  setWord req.valueLen.val 0 0x7ff ||| setWord req.ofldId.toNat 16 0xff ||| setWord req.entryNum.toNat 24 0xff |||
    true.toNat

theorem writeWord_lt (req : WriteReq) : writeWord req < 2 ^ 32 := by
  have h0 : setWord req.valueLen.val 0 0x7ff < 2 ^ 32 := setWord_lt (w := 11) (by decide) (by decide)
  have h16 : setWord req.ofldId.toNat 16 0xff < 2 ^ 32 := setWord_lt (w := 8) (by decide) (by decide)
  have h24 : setWord req.entryNum.toNat 24 0xff < 2 ^ 32 := setWord_lt (w := 8) (by decide) (by decide)
  exact or_lt_word (or_lt_word (or_lt_word (or_lt_word (or_lt_word h0 h16) h24) (toNat_lt_word _)) (toNat_lt_word _))
    (toNat_lt_word _)

theorem readWord_lt (req : ReadReq) : readWord req < 2 ^ 32 := by
  have h0 : setWord req.valueLen.val 0 0x7ff < 2 ^ 32 := setWord_lt (w := 11) (by decide) (by decide)
  have h16 : setWord req.ofldId.toNat 16 0xff < 2 ^ 32 := setWord_lt (w := 8) (by decide) (by decide)
  have h24 : setWord req.entryNum.toNat 24 0xff < 2 ^ 32 := setWord_lt (w := 8) (by decide) (by decide)
  exact or_lt_word (or_lt_word (or_lt_word h0 h16) h24) (toNat_lt_word _)

theorem writeWord_ls (req : WriteReq) : (writeWord req).testBit 15 = false := by
  unfold writeWord
  rw [Nat.testBit_or, Nat.testBit_or, Nat.testBit_or, Nat.testBit_or, Nat.testBit_or,
    setWord_testBit (Or.inr (by decide)), setWord_testBit (Or.inl (by decide)), setWord_testBit (Or.inl (by decide)),
    toNat_testBit, toNat_testBit, toNat_testBit]
  rfl

theorem readWord_ls (req : ReadReq) : (readWord req).testBit 15 = false := by
  unfold readWord
  rw [Nat.testBit_or, Nat.testBit_or, Nat.testBit_or, setWord_testBit (Or.inr (by decide)),
    setWord_testBit (Or.inl (by decide)), setWord_testBit (Or.inl (by decide)), toNat_testBit]
  rfl

theorem readWrite_ls {w0 w1 : ℕ} (h0 : w0 < 2 ^ 32) {rest rest' : List UInt8} {e : WriteEntry} {ls : Bool}
    (h : readWrite (le32 w0 ++ le32 w1 ++ rest) = some ((e, ls), rest')) : ls = w0.testBit 15 := by
  unfold le32 at h
  simp only [List.cons_append, List.nil_append, readWrite] at h
  rw [readLe32_le32 h0, Option.ite_none_left_eq_some] at h
  injection h.2 with h
  injection h with h _
  injection h with _ h
  exact h.symm

theorem readRead_ls {w0 w1 : ℕ} (h0 : w0 < 2 ^ 32) {rest rest' : List UInt8} {e : ReadReq} {ls : Bool}
    (h : readRead (le32 w0 ++ le32 w1 ++ rest) = some ((e, ls), rest')) : ls = w0.testBit 15 := by
  unfold le32 at h
  simp only [List.cons_append, List.nil_append, readRead] at h
  rw [readLe32_le32 h0] at h
  injection h with h
  injection h with h _
  injection h with _ h
  exact h.symm

/-! ### The two lists -/

def ReqOfld.cleared (request : OfldReq) (h2c : OfldH2c) : ReqOfld := ⟨request, h2c, none, none, 0, 0, 0, 0⟩

variable {request : OfldReq} {h2c : OfldH2c}

def ReqOfld.opened (request : OfldReq) (h2c : OfldH2c) (maxLen : ℕ) : ReqOfld :=
  ⟨request, h2c, some [], none, maxLen, maxLen, 0, 0⟩

theorem alloc_cleared (maxLen : ℕ) :
    (ReqOfld.cleared request h2c).alloc true maxLen = some (ReqOfld.opened request h2c maxLen) := rfl

theorem cnv_created {s : ReqOfld} (h : s.Takes) : s.request.cnv .created = some .created := by
  rcases h with h | h
  · rw [h]; rfl
  · rw [h]; rfl

theorem usedBytes_eq {s : ReqOfld} {hdr rest : List UInt8} (hbuf : s.buf = some (hdr ++ rest))
    (hlen : hdr.length ≤ s.usedSize) : s.usedBytes = hdr ++ rest.take (s.usedSize - hdr.length) := by
  unfold ReqOfld.usedBytes
  rw [hbuf]
  show (hdr ++ rest).take s.usedSize = _
  rw [List.take_append, List.take_of_length_le hlen]

theorem not_readable {ε : Type*} {parse : List UInt8 → Option ((ε × Bool) × List UInt8)} {s : ReqOfld} {e : ε}
    {hdr rest : List UInt8} (hbuf : s.buf = some (hdr ++ rest)) (hne : hdr ≠ []) (hlen : hdr.length ≤ s.usedSize)
    (hls : ∀ rest e ls rest', parse (hdr ++ rest) = some ((e, ls), rest') → ls = false) :
    ¬ Reqs.Readable parse ⟨s, [e]⟩ := by
  rintro ⟨hread, -⟩
  have hbytes := usedBytes_eq hbuf hlen
  have hread : parseAll parse s.usedBytes.length s.usedBytes = some [(e, true)] := hread
  rw [hbytes] at hread
  obtain ⟨e', rest', es', hparse, hes⟩ := parseAll_cons (List.append_ne_nil_of_left_ne_nil hne _) hread
  injection hes with hes _
  rw [← hes] at hparse; exact nomatch hls _ _ _ _ hparse

theorem addWrite_stuck (a : WriteAdd) (h : ¬ ((ReqOfld.cleared request h2c).Takes ∧ a.malloc = true)) :
    (a.run (.cleared request h2c)).1 ≠ .success ∧ (a.run (.cleared request h2c)).2 = .cleared request h2c := by
  unfold WriteAdd.run macAddWriteRequest
  by_cases htakes : (ReqOfld.cleared request h2c).Takes
  · rw [if_neg (not_not_intro htakes), Bool.eq_false_of_not_eq_true fun hm => h ⟨htakes, hm⟩]
    exact ⟨Ret.mac_ne nofun, rfl⟩
  · rw [if_pos htakes]; exact ⟨nofun, rfl⟩

theorem opened_ne (maxLen : ℕ) : ReqOfld.opened request h2c maxLen ≠ .cleared request h2c := fun heq =>
  nomatch congrArg ReqOfld.buf heq

theorem addWrite_first (a : WriteAdd) (h : (ReqOfld.cleared request h2c).Takes ∧ a.malloc = true) :
    ((a.run (.cleared request h2c)).1 ≠ .success ∧ (a.run (.cleared request h2c)).2 ≠ .cleared request h2c) ∨
      ((a.run (.cleared request h2c)).1 = .success ∧
        ¬ Reqs.Readable readWrite ⟨(a.run (.cleared request h2c)).2, [a.entry]⟩) := by
  obtain ⟨htakes, hmalloc⟩ := h
  have hcnv : (ReqOfld.opened request h2c writeOfldMaxLen).request.cnv .created = some .created := cnv_created htakes
  unfold WriteAdd.run macAddWriteRequest
  rw [if_neg (not_not_intro htakes), hmalloc, alloc_cleared]
  simp only
  by_cases hroom : (ReqOfld.opened request h2c writeOfldMaxLen).avlBufSize <
      sizeofReq + a.req.valueLen.val + (if a.req.maskEn = true then a.req.valueLen.val else 0)
  · rw [if_pos hroom]; exact Or.inl ⟨Ret.mac_ne nofun, opened_ne _⟩
  rw [if_neg hroom]
  by_cases hvalue : a.value = none
  · rw [if_pos hvalue]; exact Or.inl ⟨Ret.mac_ne nofun, opened_ne _⟩
  rw [if_neg hvalue]
  by_cases hmask : a.req.maskEn = true ∧ a.mask = none
  · rw [if_pos hmask]; exact Or.inl ⟨Ret.mac_ne nofun, opened_ne _⟩
  rw [if_neg hmask, hcnv]
  refine Or.inr ⟨rfl, ?_⟩
  have hls : ∀ rest e ls rest', readWrite (fwcmdWriteOfldReq a.req ++ rest) = some ((e, ls), rest') → ls = false := by
    intro rest e ls rest' hparse
    rw [readWrite_ls (writeWord_lt a.req) hparse, writeWord_ls]
  simp only
  by_cases hen : a.req.maskEn = true
  · rw [if_pos hen]
    have hbuf : some ((([] ++ fwcmdWriteOfldReq a.req) ++ bytesAt a.value) ++ bytesAt a.mask) =
        some (fwcmdWriteOfldReq a.req ++ (bytesAt a.value ++ bytesAt a.mask)) := by
      rw [List.nil_append, List.append_assoc]
    exact not_readable hbuf nofun (by show 8 ≤ 0 + 8 + _ + _; omega) hls
  · rw [if_neg hen]
    have hbuf : some (([] ++ fwcmdWriteOfldReq a.req) ++ bytesAt a.value) =
        some (fwcmdWriteOfldReq a.req ++ bytesAt a.value) := rfl
    exact not_readable hbuf nofun (by show 8 ≤ 0 + 8 + _; omega) hls

theorem addRead_stuck (a : ReadAdd) (h : ¬ ((ReqOfld.cleared request h2c).Takes ∧ a.malloc = true)) :
    (a.run (.cleared request h2c)).1 ≠ .success ∧ (a.run (.cleared request h2c)).2 = .cleared request h2c := by
  unfold ReadAdd.run macAddReadRequest
  by_cases htakes : (ReqOfld.cleared request h2c).Takes
  · rw [if_neg (not_not_intro htakes), Bool.eq_false_of_not_eq_true fun hm => h ⟨htakes, hm⟩]
    exact ⟨Ret.mac_ne nofun, rfl⟩
  · rw [if_pos htakes]; exact ⟨nofun, rfl⟩

theorem addRead_first (a : ReadAdd) (h : (ReqOfld.cleared request h2c).Takes ∧ a.malloc = true) :
    ((a.run (.cleared request h2c)).1 ≠ .success ∧ (a.run (.cleared request h2c)).2 ≠ .cleared request h2c) ∨
      ((a.run (.cleared request h2c)).1 = .success ∧
        ¬ Reqs.Readable readRead ⟨(a.run (.cleared request h2c)).2, [a.req]⟩) := by
  obtain ⟨htakes, hmalloc⟩ := h
  have hcnv : (ReqOfld.opened request h2c readOfldMaxLen).request.cnv .created = some .created := cnv_created htakes
  have hroom : ¬ (ReqOfld.opened request h2c readOfldMaxLen).avlBufSize < sizeofReq := by
    show ¬ 2000 < 8
    decide
  unfold ReadAdd.run macAddReadRequest
  rw [if_neg (not_not_intro htakes), hmalloc, alloc_cleared]
  simp only
  rw [if_neg hroom, hcnv]
  refine Or.inr ⟨rfl, ?_⟩
  have hls : ∀ rest e ls rest', readRead (fwcmdReadOfldReq a.req ++ rest) = some ((e, ls), rest') → ls = false := by
    intro rest e ls rest' hparse
    rw [readRead_ls (readWord_lt a.req) hparse, readWord_ls]
  have hbuf : some ([] ++ fwcmdReadOfldReq a.req) = some (fwcmdReadOfldReq a.req ++ []) := by
    rw [List.nil_append, List.append_nil]
  exact not_readable hbuf nofun (by show 8 ≤ 0 + 8; omega) hls

theorem readable_cleared {ε : Type*} (parse : List UInt8 → Option ((ε × Bool) × List UInt8)) :
    Reqs.Readable parse ⟨.cleared request h2c, []⟩ := ⟨rfl, rfl⟩

/-- **The lists of requests** are what the firmware reads exactly while no call gets to the buffer: each header lacks the
flag of the last request, and a call that is refused after the buffer was allocated leaves that behind. -/
theorem requests_readable_iff (request : OfldReq) (h2c : OfldH2c) :
    (∀ calls, ListCorrect WriteAdd.run WriteAdd.entry readWrite (.cleared request h2c) calls ↔
      ∀ a ∈ calls, ¬ ((ReqOfld.cleared request h2c).Takes ∧ a.malloc = true)) ∧
    ∀ calls, ListCorrect ReadAdd.run ReadAdd.req readRead (.cleared request h2c) calls ↔
      ∀ a ∈ calls, ¬ ((ReqOfld.cleared request h2c).Takes ∧ a.malloc = true) :=
  ⟨fun _ => listCorrect_iff (readable_cleared readWrite) addWrite_stuck addWrite_first,
    fun _ => listCorrect_iff (readable_cleared readRead) addRead_stuck addRead_first⟩

/-- One read request of four bytes: the flag of the last request reads as a length of five. -/
theorem read_request_unreadable : ¬ ∀ request h2c calls,
    ListCorrect ReadAdd.run ReadAdd.req readRead (.cleared request h2c) calls := by
  intro h
  have hread := (h .cleaned .idle [⟨true, ⟨4, 0, 0, 0⟩⟩]).1 [⟨true, ⟨4, 0, 0, 0⟩⟩] (List.prefix_refl _)
  exact absurd hread.1 (by decide)

end Rtl8852cu.Fwofld
