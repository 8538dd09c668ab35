import Rtl8852cu.Recv.Fragments
import Rtl8852cu.Recv.Validate

/-!
# Frames that fail the integrity check

`validate_recv_data_frame` writes the duplicate cache before `decryptor` and `recvframe_chkmic` look
at the frame, and nothing takes the entry back.
-/

namespace Rtl8852cu.Recv

/-- The duplicate and replay state is the same: the sequence caches of every station and the packet
numbers of the group keys. -/
structure SameReplayState (st st' : RecvPriv) : Prop where
  tidRxseq : ∀ s, (st'.sta s).tidRxseq = (st.sta s).tidRxseq
  bmcTidRxseq : ∀ s, (st'.sta s).bmcTidRxseq = (st.sta s).bmcTidRxseq
  nonqosRxseq : ∀ s, (st'.sta s).nonqosRxseq = (st.sta s).nonqosRxseq
  nonqosBmcRxseq : ∀ s, (st'.sta s).nonqosBmcRxseq = (st.sta s).nonqosBmcRxseq
  ivSeq : st'.ivSeq = st.ivSeq

section

variable {env : RxEnv} {f g : RecvFrame} {s : StaId} {st st' : RecvPriv} {p p' : StaRecvPriv}
  {a : RxPktAttrib}

theorem SameReplayState.rxseq (h : SameReplayState st st') (s : StaId) (a : RxPktAttrib) :
    (st'.sta s).rxseq a = (st.sta s).rxseq a := by
  unfold StaRecvPriv.rxseq
  rw [h.tidRxseq, h.bmcTidRxseq, h.nonqosRxseq, h.nonqosBmcRxseq]

/-! ### The caches -/

theorem rxseq_setRxseq (p : StaRecvPriv) (a : RxPktAttrib) (n : ℕ) : (p.setRxseq a n).rxseq a = n := by
  unfold StaRecvPriv.rxseq StaRecvPriv.setRxseq; cases a.qos <;> cases isMcast a.ra <;> simp

theorem recvDecache_some (h : recvDecache p a = some p') :
    a.priority ≤ 15 ∧ p.rxseq a ≠ a.seqCtrl ∧ p'.rxseq a = a.seqCtrl := by
  unfold recvDecache at h
  split at h
  · cases h
  · rename_i hp
    split at h
    · cases h
    · rename_i hne
      cases h
      exact ⟨by omega, fun he => hne he.symm, rxseq_setRxseq ..⟩

theorem rxseq_ucastPn (h : recvUcastPnDecache p f = some p') (a : RxPktAttrib) : p'.rxseq a = p.rxseq a := by
  unfold recvUcastPnDecache at h
  simp only at h
  split at h
  · cases h
  · split at h
    · split at h
      · cases h; rfl
      · cases h; rfl
    · cases h; rfl

theorem pnDecache_rxseq (t : StaId) (a : RxPktAttrib) :
    ((pnDecache env s f st).2.sta t).rxseq a = (st.sta t).rxseq a := by
  unfold pnDecache
  split
  · cases h : recvUcastPnDecache (st.sta s) f with
    | none => rfl
    | some p =>
      simp only [RecvPriv.setSta]
      by_cases ht : t = s
      · rw [ht, Function.update_self]; exact rxseq_ucastPn h a
      · rw [Function.update_of_ne ht]
  · rfl

theorem validate_records (h : validateRecvDataFrame env f st = (some (s, g), st')) :
    ∃ a : RxPktAttrib, a.priority ≤ 15 ∧ (st.sta s).rxseq a ≠ a.seqCtrl ∧ (st'.sta s).rxseq a = a.seqCtrl := by
  obtain ⟨a, p, -, hd, hpn, -⟩ := validateRecvDataFrame_some h
  obtain ⟨hle, hne, hseq⟩ := recvDecache_some hd
  have hrx : ((pnDecache env s (parseQc s { f with attrib := a }) (st.setSta s p)).2.sta s).rxseq _ =
      ((st.setSta s p).sta s).rxseq (parseQc s { f with attrib := a }).attrib := pnDecache_rxseq s _
  rw [hpn] at hrx
  refine ⟨_, hle, hne, ?_⟩
  rw [hrx]
  simpa [RecvPriv.setSta] using hseq

theorem rxDataPreProcess_keeps : (rxDataPreProcess env s f st).2.sta = st.sta ∧
      (rxDataPreProcess env s f st).2.ivSeq = st.ivSeq := by
  unfold rxDataPreProcess
  cases decryptor env f with
  | none => exact ⟨rfl, rfl⟩
  | some f =>
    simp only
    split
    · split
      · exact ⟨rfl, rfl⟩
      · split <;> exact ⟨rfl, rfl⟩
    · exact ⟨rfl, rfl⟩
    · exact ⟨rfl, rfl⟩

end

/-- The frame was dropped because it could not be decrypted or its MIC was wrong. -/
def FailsIntegrity (env : RxEnv) (f : RecvFrame) (st : RecvPriv) : Prop :=
  (rxDataFrame env f st).1 = .dropDecrypt ∨ (rxDataFrame env f st).1 = .dropMic

/-- **A frame that fails the integrity check is recorded all the same.**  The state is never what it
was before, and a header that `recv_decache` would have let through before is a duplicate now. -/
theorem failed_frame_recorded (env : RxEnv) (f : RecvFrame) (st : RecvPriv) (h : FailsIntegrity env f st) :
    ¬ SameReplayState st (rxDataFrame env f st).2 ∧ ∃ s a, recvDecache (st.sta s) a ≠ none ∧
        recvDecache ((rxDataFrame env f st).2.sta s) a = none := by
  unfold FailsIntegrity at h
  unfold rxDataFrame at h ⊢
  cases hv : validateRecvDataFrame env f st with
  | mk r st1 =>
    rw [hv] at h
    cases r with
    | none => simp at h
    | some r =>
      obtain ⟨s, g⟩ := r
      obtain ⟨a, hle, hne, hseq⟩ := validate_records hv
      have hsta : (rxDataPreProcess env s g st1).2.sta = st1.sta := rxDataPreProcess_keeps.1
      simp only
      constructor
      · intro hsame
        have := hsame.rxseq s a
        rw [hsta, hseq] at this; exact hne this.symm
      · refine ⟨s, a, ?_, ?_⟩
        · unfold recvDecache
          rw [if_neg (by omega), if_neg (fun he => hne he.symm)]; exact Option.some_ne_none _
        · unfold recvDecache; rw [if_neg (by omega), hsta, if_pos hseq.symm]

/-- The state of a driver that has received nothing. -/
def RecvPriv.init : RecvPriv :=
  ⟨fun _ => ⟨fun _ => 0xffff, fun _ => 0xffff, 0xffff, 0xffff, fun _ => [], 0⟩, fun _ => 0, fun _ => []⟩

/-- A station with CCMP that holds no key under which any MIC is right. -/
def ccmpStation : RxEnv where
  mlmeIsSta := true
  mlmeIsApOrMesh := false
  authAlgrthm := .ieee8021X
  privacyAlgrthm := .aes
  grpPrivacy := .aes
  sta := fun _ => ⟨false, .aes, false, 0⟩
  validateHdr := fun f => .success (some 0) f.attrib
  matchSelfAddr := fun _ => true
  wepDecrypt := id
  tkipDecrypt := fun _ => none
  aesDecrypt := fun _ => none
  gcmpDecrypt := fun _ => none
  tkipMic := fun _ => false

/-- A protected QoS frame made up by somebody else, with TID 0 and sequence number 7. -/
def forgedFrame : RecvFrame :=
  let f := plainFragment [2, 0, 0, 0, 0, 1] 7 0 false (List.replicate 40 0)
  { f with
    attrib := { f.attrib with qos := true, privacy := true, bdecrypted := false, encrypt := .aes } }

theorem failed_frame_recorded_forged : FailsIntegrity ccmpStation forgedFrame .init ∧
      ¬ SameReplayState .init (rxDataFrame ccmpStation forgedFrame .init).2 :=
  have h : FailsIntegrity ccmpStation forgedFrame .init := .inl (by decide)
  ⟨h, (failed_frame_recorded ccmpStation forgedFrame .init h).1⟩

/-- The forged frame leaves its sequence number in the cache of TID 0. -/
theorem not_replay_state_kept :
    ¬ ∀ env f st, FailsIntegrity env f st → SameReplayState st (rxDataFrame env f st).2 := by
  intro h
  have hsame := h ccmpStation forgedFrame .init (.inl (by decide))
  exact absurd (congrFun (hsame.tidRxseq 0) 0) (by decide)

end Rtl8852cu.Recv
