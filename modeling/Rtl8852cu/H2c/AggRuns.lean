import Mathlib.Data.List.Forall2
import Mathlib.Data.List.Perm.Basic
import Rtl8852cu.H2c.Agg

/-!
# What an aggregated transmission hands over

The error path takes the lock that the call holds, so one step that fails is enough for the call never to return. A packet
whose descriptor is the long one has no room for it in front.
-/

namespace Rtl8852cu.H2c

open Lib

variable {usb : Bool} {env : ℕ → AggEnv} {cur : Cmd} {rest nodes : List Cmd} {v : AggVars} {s : AggInfo}

/-! ### What is to hold -/

/-- The length of the descriptor of a packet: `AX_RXD_LONG_RXD` is the highest bit of its first word. -/
def descLen (data : List UInt8) : ℕ := if (data.getD 3 0).toNat < 128 then rxdShortLen else rxdLongLen

/-- The commands in a packet, as the firmware finds them. -/
def H2cb.decode (h2cb : H2cb) : Option (List (List UInt8)) :=
  if h2cb.id = h2cAggId then unframe ((h2cb.data.drop (descLen h2cb.data)).drop fwcmdHdrLen)
  else some [h2cb.data.drop (descLen h2cb.data)]

/-- The command is there, as it is or up to the next word. -/
def Cmd.In (cmd : Cmd) (body : List UInt8) : Prop := body = cmd.data ∨ body = pad4 cmd.data

def enqueued (cmds : List Cmd) : Option AggInfo :=
  cmds.foldl (fun s cmd => s.bind fun s => (h2cAggEnqueue true cmd s).map Prod.snd) (some .start)

/-- **What a call is to do**: every command has been given to the platform or recycled once, and where all allocations and
transmissions succeed the packets are the commands in their order, none is too long, and the queue is empty. -/
def AggTxHolds (usb : Bool) (env : ℕ → AggEnv) (cmds : List Cmd) : Prop :=
  ∃ s₀ ret s, enqueued cmds = some s₀ ∧ macH2cAggTx usb env s₀ = some (ret, s) ∧
    (s.sent.filterMap Sent.own ++ s.recycled).Perm cmds ∧
    ((∀ k, (env k).alloc = true ∧ (env k).tx = true) →
      (∃ bodies, s.sent.mapM (fun x => x.h2cb.decode) = some bodies ∧ List.Forall₂ Cmd.In cmds bodies.flatten) ∧
      (∀ x ∈ s.sent, x.h2cb.id = h2cAggId → x.h2cb.data.length ≤ rxdShortLen + h2cLongDataLen) ∧
      s.queue = [] ∧ s.h2cAggPktNum = 0)

/-! ### Which commands go together -/

inductive Group
  | alone (cmd : Cmd)
  | agg (cmds : List Cmd)

/-- The transmissions of a list of commands, where `opened` has been put together already. -/
def groupsFrom : Option (List Cmd × ℕ) → List Cmd → List Group
  | _, [] => []
  | none, cur :: rest =>
    if Alone cur rest then .alone cur :: groupsFrom none rest
    else if Full (wdBodyLen + fwcmdHdrLen + align4Byte cur.len + h2cAggSubHdrLen) rest then
      .agg [cur] :: groupsFrom none rest
    else groupsFrom (some ([cur], wdBodyLen + fwcmdHdrLen + align4Byte cur.len + h2cAggSubHdrLen)) rest
  | some (cmds, aggLen), cur :: rest =>
    if Full (aggLen + align4Byte cur.len + h2cAggSubHdrLen) rest then .agg (cmds ++ [cur]) :: groupsFrom none rest
    else groupsFrom (some (cmds ++ [cur], aggLen + align4Byte cur.len + h2cAggSubHdrLen)) rest

def groups (cmds : List Cmd) : List Group := groupsFrom none cmds

/-- What is put into a packet for some commands. -/
def payload (cmds : List Cmd) : List UInt8 := (cmds.map fun cmd => pad4 cmd.data).flatMap frame

/-- The length of a transmission, its header with it. -/
def Group.len : Group → ℕ
  | .alone cmd => cmd.len
  | .agg cmds => fwcmdHdrLen + (payload cmds).length

/-- A transmission goes through: it is not of a length for which the descriptor would be the long one, and no step
fails. -/
def Group.Ok (usb : Bool) (env : AggEnv) (g : Group) : Prop :=
  ¬ (usb = true ∧ (g.len + rxdShortLen) % 0x200 = 0) ∧ env.tx = true ∧ match g with
    | .alone _ => True
    | .agg _ => env.alloc = true ∧ env.fwReady = true

/-- Every transmission goes through, the first one being the one that comes after `k` others. -/
def AllOk (usb : Bool) (env : ℕ → AggEnv) : ℕ → List Group → Prop
  | _, [] => True
  | k, g :: gs => g.Ok usb (env k) ∧ AllOk usb env (k + 1) gs

/-! ### Lengths and descriptors -/

theorem le_align4Byte (len : ℕ) : len ≤ align4Byte len := by
  unfold align4Byte; omega

theorem length_pad4 (data : List UInt8) : (pad4 data).length = align4Byte data.length := by
  have hle := le_align4Byte data.length
  unfold pad4
  rw [List.length_append, List.length_replicate]; omega

theorem length_frame_pad4 (cmd : Cmd) : (frame (pad4 cmd.data)).length = align4Byte cmd.len + h2cAggSubHdrLen := by
  rw [length_frame, length_pad4, Nat.add_comm]

theorem payload_append (cmds : List Cmd) : payload (cmds ++ [cur]) = payload cmds ++ frame (pad4 cur.data) := by
  unfold payload
  rw [List.map_append, List.flatMap_append]
  simp only [List.map_cons, List.map_nil, List.flatMap_cons, List.flatMap_nil, List.append_nil]

theorem length_payload_append (cmds : List Cmd) :
    (payload (cmds ++ [cur])).length = (payload cmds).length + (align4Byte cur.len + h2cAggSubHdrLen) := by
  rw [payload_append, List.length_append, length_frame_pad4]

theorem length_frame_le_payload {cmds : List Cmd} (h : cur ∈ cmds) : (pad4 cur.data).length ≤ (payload cmds).length := by
  induction cmds with
  | nil => exact absurd h List.not_mem_nil
  | cons c cmds ih =>
    unfold payload
    rw [List.map_cons, List.flatMap_cons, List.length_append, length_frame]
    rcases List.mem_cons.mp h with rfl | h
    · omega
    · have hle := ih h
      unfold payload at hle; omega

theorem descLen_txdesc (pktlen : ℕ) (rest : List UInt8) : descLen (txdesc pktlen rxdShortLen ++ rest) = rxdShortLen := by
  have hbyte : (txdesc pktlen rxdShortLen ++ rest).getD 3 0 =
      UInt8.ofNat ((setWord pktlen 0 0x3fff ||| setWord 13 24 0xf ||| 0) / 2 ^ 24) := rfl
  have hlow : setWord pktlen 0 0x3fff < 2 ^ 24 := by
    unfold setWord
    have hand : pktlen &&& 0x3fff ≤ 0x3fff := Nat.and_le_right
    rw [Nat.shiftLeft_zero]; omega
  have hword : (setWord pktlen 0 0x3fff ||| setWord 13 24 0xf ||| 0) / 2 ^ 24 = 13 := by
    rw [Nat.or_zero, ← Nat.shiftRight_eq_div_pow, Nat.shiftRight_or_distrib, Nat.shiftRight_eq_div_pow,
      Nat.div_eq_of_lt hlow]
    rfl
  unfold descLen
  rw [hbyte, hword]; rfl

theorem drop_txdesc (pktlen : ℕ) (rest : List UInt8) :
    (txdesc pktlen rxdShortLen ++ rest).drop (descLen (txdesc pktlen rxdShortLen ++ rest)) = rest := by
  rw [descLen_txdesc]; exact List.drop_left' (length_txdesc (by decide))

theorem buildTxd_iff {e : H2cEnv} {h2cb : H2cb} (hhead : h2cb.head = wdBodyLen) : h2cPktBuildTxd e h2cb =
      if e.usb = true ∧ (h2cb.data.length + rxdShortLen) % 0x200 = 0 then .error .nptr
      else .ok { h2cb with
        head := h2cb.head - rxdShortLen, data := txdesc h2cb.data.length rxdShortLen ++ h2cb.data } := by
  rw [h2cPktBuildTxd_eq]
  unfold txdescLen
  by_cases hlong : e.usb = true ∧ (h2cb.data.length + rxdShortLen) % 0x200 = 0
  · rw [if_pos hlong, if_pos hlong, if_pos (by rw [hhead]; decide)]
  · rw [if_neg hlong, if_neg hlong, if_neg (by rw [hhead]; decide)]

/-! ### One transmission -/

/-- The commands of a transmission, and their bodies in it. -/
def Group.cmds : Group → List Cmd
  | .alone cmd => [cmd]
  | .agg cmds => cmds

def Group.bodies : Group → List (List UInt8)
  | .alone cmd => [cmd.data]
  | .agg cmds => cmds.map fun cmd => pad4 cmd.data

/-- The commands that are copied, and whose own packets are recycled. -/
def Group.copied : Group → List Cmd
  | .alone _ => []
  | .agg cmds => cmds

def Group.own : Group → Option Cmd
  | .alone cmd => some cmd
  | .agg _ => none

/-- The transmission has been handed over. -/
structure Group.Handed (g : Group) (x : Sent) : Prop where
  decode : x.h2cb.decode = some g.bodies
  own : x.own = g.own
  len : x.h2cb.id = h2cAggId → x.h2cb.data.length ≤ rxdShortLen + h2cLongDataLen

/-- The packet that some commands have been put into. -/
def aggBuf (cmds : List Cmd) : H2cb :=
  { H2cb.reset .longData with data := payload cmds, room := h2cLongDataLen - (payload cmds).length }

theorem txSingleNormal_spec (usb : Bool) (e : AggEnv) (cur : Cmd) :
    ((Group.alone cur).Ok usb e → ∃ h2cb, macH2cAggTxSingleNormalH2c usb e cur.h2cb = .ok h2cb ∧
      (Group.alone cur).Handed ⟨h2cb, some cur⟩) ∧
    (¬ (Group.alone cur).Ok usb e → ∃ ret, macH2cAggTxSingleNormalH2c usb e cur.h2cb = .error ret ∧ ret ≠ .success) := by
  unfold macH2cAggTxSingleNormalH2c
  rw [buildTxd_iff rfl]
  constructor
  · rintro ⟨hlong, htx, -⟩
    rw [if_neg (by exact hlong)]
    simp only
    rw [if_pos htx]
    refine ⟨_, rfl, ?_, rfl, fun hid => absurd hid cur.notAgg⟩
    unfold H2cb.decode
    rw [if_neg (by exact cur.notAgg)]; exact congrArg (fun d => some [d]) (drop_txdesc _ _)
  · intro hno
    by_cases hlong : (e.h2c usb).usb = true ∧ (cur.h2cb.data.length + rxdShortLen) % 0x200 = 0
    · rw [if_pos hlong]; exact ⟨_, rfl, nofun⟩
    · rw [if_neg hlong]
      simp only
      rw [if_neg fun htx => hno ⟨hlong, htx, trivial⟩]; exact ⟨_, rfl, nofun⟩

theorem txSingleAgg_spec (usb : Bool) (e : AggEnv) (cmds : List Cmd) (halloc : e.alloc = true)
    (hlen : fwcmdHdrLen + (payload cmds).length ≤ h2cLongDataLen) :
    ((Group.agg cmds).Ok usb e → ∃ h2cb, macH2cAggTxSingleAggH2c usb e (aggBuf cmds) = .ok h2cb ∧
      (Group.agg cmds).Handed ⟨h2cb, none⟩) ∧
    (¬ (Group.agg cmds).Ok usb e → ∃ ret, macH2cAggTxSingleAggH2c usb e (aggBuf cmds) = .error ret ∧ ret ≠ .success) := by
  unfold macH2cAggTxSingleAggH2c
  by_cases hrdy : e.fwReady = true
  · rw [h2cPktSetHdr_ok (e.h2c usb) (aggBuf cmds) h2cAggId false false hrdy (by show 8 ≤ 32; decide)]
    simp only
    rw [buildTxd_iff (by rfl)]
    have hdata : (fwcmdHdr h2cAggId (e.h2c usb).h2cSeq ((aggBuf cmds).data.length + fwcmdHdrLen) false false ++
        (aggBuf cmds).data).length = (Group.agg cmds).len := by
      rw [List.length_append, length_fwcmdHdr]; rfl
    simp only [hdata]
    constructor
    · rintro ⟨hlong, htx, -⟩
      rw [if_neg (by exact hlong)]
      simp only
      rw [if_pos htx]
      refine ⟨_, rfl, ?_, rfl, fun _ => ?_⟩
      · have hdrop : ((txdesc (Group.agg cmds).len rxdShortLen ++ (fwcmdHdr h2cAggId (e.h2c usb).h2cSeq
            ((aggBuf cmds).data.length + fwcmdHdrLen) false false ++ (aggBuf cmds).data)).drop
              (descLen (txdesc (Group.agg cmds).len rxdShortLen ++ (fwcmdHdr h2cAggId (e.h2c usb).h2cSeq
                ((aggBuf cmds).data.length + fwcmdHdrLen) false false ++ (aggBuf cmds).data)))).drop fwcmdHdrLen =
            payload cmds := by
          rw [drop_txdesc]; exact List.drop_left' (length_fwcmdHdr _ _ _ _ _)
        unfold H2cb.decode
        rw [if_pos rfl, hdrop]
        refine unframe_frames fun b hb => ?_
        obtain ⟨cmd, hcmd, rfl⟩ := List.mem_map.mp hb
        have hle := length_frame_le_payload hcmd
        unfold h2cLongDataLen at hlen; omega
      · simp only
        rw [List.length_append, hdata, length_txdesc (by decide)]; exact Nat.add_le_add_left hlen _
    · intro hno
      by_cases hlong : (e.h2c usb).usb = true ∧ ((Group.agg cmds).len + rxdShortLen) % 0x200 = 0
      · rw [if_pos hlong]; exact ⟨_, rfl, nofun⟩
      · rw [if_neg hlong]
        simp only
        rw [if_neg fun htx => hno ⟨hlong, htx, halloc, hrdy⟩]; exact ⟨_, rfl, nofun⟩
  · have hset : h2cPktSetHdr (e.h2c usb) (aggBuf cmds) h2cAggId false false = .error .fwNonRdy :=
      if_pos ((Bool.not_eq_true _).mp hrdy)
    rw [hset]; exact ⟨fun hok => absurd hok.2.2.2 hrdy, fun _ => ⟨_, rfl, nofun⟩⟩

/-! ### The loop -/

/-- The packet that is being put together. -/
def Opened (env : ℕ → AggEnv) (nodes : List Cmd) (v : AggVars) : Option (List Cmd × ℕ) → Prop
  | none => v.aggH2cb = none
  | some (cmds, aggLen) => v.aggH2cb = some (aggBuf cmds) ∧ v.aggLen = aggLen ∧ (env v.k).alloc = true ∧
    aggLen = wdBodyLen + fwcmdHdrLen + (payload cmds).length ∧ ¬ Full aggLen nodes

def openedCmds : Option (List Cmd × ℕ) → List Cmd
  | none => []
  | some (cmds, _) => cmds

/-- What the loop does: it hands over the transmissions, or it ends with an error, still with the lock. -/
structure LoopDone (usb : Bool) (env : ℕ → AggEnv) (nodes : List Cmd) (v : AggVars) (s : AggInfo)
    (o : Option (List Cmd × ℕ)) : Prop where
  ok : AllOk usb env v.k (groupsFrom o nodes) → ∃ v' s' new copied, aggTxLoop usb env nodes v s = (.success, v', s') ∧
    s'.sent = s.sent ++ new ∧ s'.recycled = s.recycled ++ copied ∧ List.Forall₂ Group.Handed (groupsFrom o nodes) new ∧
    openedCmds o ++ copied = (groupsFrom o nodes).flatMap Group.copied
  error : ¬ AllOk usb env v.k (groupsFrom o nodes) → (aggTxLoop usb env nodes v s).1 ≠ .success ∧
    (aggTxLoop usb env nodes v s).2.2.locked = s.locked

theorem h2cbPut_aggBuf {cmds : List Cmd}
    (hfit : (payload cmds).length + (align4Byte cur.len + h2cAggSubHdrLen) ≤ h2cLongDataLen) :
    h2cbPut (aggBuf cmds) (frame (pad4 cur.data)) = some (aggBuf (cmds ++ [cur])) := by
  have hroom : (frame (pad4 cur.data)).length ≤ (aggBuf cmds).room := by
    show _ ≤ h2cLongDataLen - (payload cmds).length
    rw [length_frame_pad4]; omega
  rw [h2cbPut_some hroom]
  unfold aggBuf
  rw [payload_append, List.length_append, Nat.sub_add_eq]

theorem alloc_of_allOk {cmds : List Cmd} {aggLen k : ℕ} (hne : nodes ≠ [])
    (h : AllOk usb env k (groupsFrom (some (cmds, aggLen)) nodes)) : (env k).alloc = true := by
  induction nodes generalizing cmds aggLen with
  | nil => exact absurd rfl hne
  | cons cur rest ih =>
    rw [groupsFrom] at h
    by_cases hfull : Full (aggLen + align4Byte cur.len + h2cAggSubHdrLen) rest
    · rw [if_pos hfull] at h; exact h.1.2.2.1
    · rw [if_neg hfull] at h; exact ih (fun hnil => hfull (.inl (List.isEmpty_iff.mpr hnil))) h

theorem loop_into {o : Option (List Cmd × ℕ)} {cmds : List Cmd} {aggLen : ℕ}
    (hplace : place (env v.k) v cur rest = .into (aggBuf cmds) aggLen)
    (hlen : aggLen = wdBodyLen + fwcmdHdrLen + (payload cmds).length)
    (hfit : aggLen + align4Byte cur.len + h2cAggSubHdrLen < h2cLongDataLen) (halloc : (env v.k).alloc = true)
    (hopen : openedCmds o = cmds) (hgroups : groupsFrom o (cur :: rest) =
      if Full (aggLen + align4Byte cur.len + h2cAggSubHdrLen) rest then .agg (cmds ++ [cur]) :: groupsFrom none rest
      else groupsFrom (some (cmds ++ [cur], aggLen + align4Byte cur.len + h2cAggSubHdrLen)) rest)
    (ih : ∀ o v s, Opened env rest v o → LoopDone usb env rest v s o) : LoopDone usb env (cur :: rest) v s o := by
  have hput : h2cbPut (aggBuf cmds) (frame (pad4 cur.data)) = some (aggBuf (cmds ++ [cur])) :=
    h2cbPut_aggBuf (by omega)
  have hnew : (payload (cmds ++ [cur])).length = (payload cmds).length + (align4Byte cur.len + h2cAggSubHdrLen) :=
    length_payload_append cmds
  by_cases hfull : Full (aggLen + align4Byte cur.len + h2cAggSubHdrLen) rest
  · rw [if_pos hfull] at hgroups
    obtain ⟨hsent, hfail⟩ := txSingleAgg_spec usb (env v.k) (cmds ++ [cur]) halloc
      (by rw [hnew]; unfold wdBodyLen at hlen; omega)
    constructor
    · intro hok
      rw [hgroups] at hok ⊢
      obtain ⟨h2cb, htx, hhanded⟩ := hsent hok.1
      obtain ⟨v', s', new, copied, hloop, hs, hr, hall, hcopied⟩ :=
        (ih none ⟨none, 0, v.k + 1⟩ { s with
          queue := rest, recycled := s.recycled ++ [cur], sent := s.sent ++ [⟨h2cb, none⟩] } rfl).ok hok.2
      refine ⟨v', s', ⟨h2cb, none⟩ :: new, cur :: copied, ?_, ?_, ?_, .cons hhanded hall, ?_⟩
      · rw [aggTxLoop, hplace]
        simp only [hput, htx]
        rw [if_pos hfull]; exact hloop
      · rw [hs, List.append_assoc, List.singleton_append]
      · rw [hr, List.append_assoc, List.singleton_append]
      · rw [hopen, List.flatMap_cons, ← hcopied]; exact List.append_cons _ _ _
    · intro hno
      rw [hgroups] at hno
      by_cases hok : (Group.agg (cmds ++ [cur])).Ok usb (env v.k)
      · obtain ⟨h2cb, htx, -⟩ := hsent hok
        have hrest := (ih none ⟨none, 0, v.k + 1⟩ { s with
          queue := rest, recycled := s.recycled ++ [cur], sent := s.sent ++ [⟨h2cb, none⟩] } rfl).error
            fun h => hno ⟨hok, h⟩
        rw [aggTxLoop, hplace]
        simp only [hput, htx]
        rw [if_pos hfull]; exact hrest
      · obtain ⟨ret, htx, hret⟩ := hfail hok
        rw [aggTxLoop, hplace]
        simp only [hput, htx]
        rw [if_pos hfull]; exact ⟨hret, rfl⟩
  · rw [if_neg hfull] at hgroups
    have hopened : Opened env rest ⟨some (aggBuf (cmds ++ [cur])), aggLen + align4Byte cur.len + h2cAggSubHdrLen, v.k⟩
        (some (cmds ++ [cur], aggLen + align4Byte cur.len + h2cAggSubHdrLen)) :=
      ⟨rfl, rfl, halloc, by rw [hnew]; omega, hfull⟩
    have hgo := ih _ _ { s with queue := rest, recycled := s.recycled ++ [cur] } hopened
    constructor
    · intro hok
      rw [hgroups] at hok ⊢
      obtain ⟨v', s', new, copied, hloop, hs, hr, hall, hcopied⟩ := hgo.ok hok
      refine ⟨v', s', new, cur :: copied, ?_, hs, ?_, hall, ?_⟩
      · rw [aggTxLoop, hplace]
        simp only [hput]
        rw [if_neg hfull]; exact hloop
      · rw [hr, List.append_assoc, List.singleton_append]
      · rw [hopen, ← hcopied, List.append_cons]; rfl
    · intro hno
      rw [hgroups] at hno
      rw [aggTxLoop, hplace]
      simp only [hput]
      rw [if_neg hfull]; exact hgo.error hno

theorem aggTxLoop_done : ∀ (o : Option (List Cmd × ℕ)) (v : AggVars) (s : AggInfo), Opened env nodes v o →
    LoopDone usb env nodes v s o := by
  induction nodes with
  | nil =>
    intro o v s hopen
    cases o with
    | none =>
      have hnil : groupsFrom none [] = [] := rfl
      constructor
      · intro _
        rw [hnil]
        exact ⟨v, s, [], [], rfl, (List.append_nil _).symm, (List.append_nil _).symm, .nil, rfl⟩
      · exact fun hno => absurd trivial hno
    | some p => exact absurd (.inl rfl) hopen.2.2.2.2
  | cons cur rest ih =>
    intro o v s hopen
    cases o with
    | some p =>
      obtain ⟨cmds, aggLen⟩ := p
      obtain ⟨hagg, hlen, halloc, hpay, hfull⟩ := hopen
      have hplace : place (env v.k) v cur rest = .into (aggBuf cmds) aggLen := by
        unfold place
        rw [hagg, ← hlen]
      refine loop_into hplace hpay ?_ halloc rfl (by rw [groupsFrom]) ih
      exact Nat.not_le.mp fun h => hfull (.inr h)
    | none =>
      have hagg : v.aggH2cb = none := hopen
      by_cases halone : Alone cur rest
      · have hplace : place (env v.k) v cur rest = .alone := by
          unfold place
          rw [hagg]
          simp only
          rw [if_pos halone]
        have hgroups : groupsFrom none (cur :: rest) = .alone cur :: groupsFrom none rest := by
          rw [groupsFrom, if_pos halone]
        obtain ⟨hsent, hfail⟩ := txSingleNormal_spec usb (env v.k) cur
        have hgo : ∀ h2cb, LoopDone usb env rest { v with k := v.k + 1 }
            { s with queue := rest, sent := s.sent ++ [⟨h2cb, some cur⟩] } none := fun h2cb => ih _ _ _ hagg
        constructor
        · intro hok
          rw [hgroups] at hok ⊢
          obtain ⟨h2cb, htx, hhanded⟩ := hsent hok.1
          obtain ⟨v', s', new, copied, hloop, hs, hr, hall, hcopied⟩ := (hgo h2cb).ok hok.2
          refine ⟨v', s', ⟨h2cb, some cur⟩ :: new, copied, ?_, ?_, hr, .cons hhanded hall, ?_⟩
          · rw [aggTxLoop, hplace]
            simp only [htx]; exact hloop
          · rw [hs, List.append_assoc, List.singleton_append]
          · rw [List.flatMap_cons, ← hcopied]; rfl
        · intro hno
          rw [hgroups] at hno
          rw [aggTxLoop, hplace]
          by_cases hok : (Group.alone cur).Ok usb (env v.k)
          · obtain ⟨h2cb, htx, -⟩ := hsent hok
            simp only [htx]; exact (hgo h2cb).error fun h => hno ⟨hok, h⟩
          · obtain ⟨ret, htx, hret⟩ := hfail hok
            simp only [htx]; exact ⟨hret, trivial⟩
      · have hcur : H2cPktAggregatable cur.len := Classical.not_not.mp fun h => halone (.inl h)
        have hgroups : groupsFrom none (cur :: rest) =
            if Full (wdBodyLen + fwcmdHdrLen + align4Byte cur.len + h2cAggSubHdrLen) rest then
              .agg ([] ++ [cur]) :: groupsFrom none rest
            else groupsFrom (some ([] ++ [cur], wdBodyLen + fwcmdHdrLen + align4Byte cur.len + h2cAggSubHdrLen)) rest := by
          rw [groupsFrom, if_neg halone]; rfl
        cases halloc : (env v.k).alloc with
        | true =>
          have hplace : place (env v.k) v cur rest = .into (aggBuf []) (wdBodyLen + fwcmdHdrLen) := by
            unfold place
            rw [hagg]
            simp only
            rw [if_neg halone, halloc, if_neg nofun]; rfl
          refine loop_into hplace rfl ?_ halloc rfl hgroups ih
          unfold H2cPktAggregatable at hcur; omega
        | false =>
          have hplace : place (env v.k) v cur rest = .noBuf := by
            unfold place
            rw [hagg]
            simp only
            rw [if_neg halone, halloc, if_pos rfl]
          have hno : ¬ AllOk usb env v.k (groupsFrom none (cur :: rest)) := by
            rw [hgroups]
            intro hok
            have htrue : (env v.k).alloc = true := by
              by_cases hfull : Full (wdBodyLen + fwcmdHdrLen + align4Byte cur.len + h2cAggSubHdrLen) rest
              · rw [if_pos hfull] at hok; exact hok.1.2.2.1
              · rw [if_neg hfull] at hok
                exact alloc_of_allOk (fun hnil => hfull (.inl (List.isEmpty_iff.mpr hnil))) hok
            rw [halloc] at htrue; cases htrue
          refine ⟨fun hok => absurd hok hno, fun _ => ?_⟩
          rw [aggTxLoop, hplace]; exact ⟨nofun, rfl⟩

/-! ### A call -/

theorem enqueued_eq (cmds : List Cmd) : enqueued cmds = some ⟨true, cmds, cmds.length, false, [], [], 0⟩ := by
  have hrun : ∀ queue : List Cmd, cmds.foldl (fun s cmd => s.bind fun s => (h2cAggEnqueue true cmd s).map Prod.snd)
      (some ⟨true, queue, queue.length, false, [], [], 0⟩) =
        some ⟨true, queue ++ cmds, (queue ++ cmds).length, false, [], [], 0⟩ := by
    induction cmds with
    | nil => exact fun queue => by rw [List.append_nil]; rfl
    | cons cmd cmds ih =>
      intro queue
      have hstep : (h2cAggEnqueue true cmd ⟨true, queue, queue.length, false, [], [], 0⟩).map Prod.snd =
          some ⟨true, queue ++ [cmd], (queue ++ [cmd]).length, false, [], [], 0⟩ := by
        rw [List.length_append]; rfl
      rw [List.foldl_cons, Option.bind_some, hstep, ih, ← List.append_cons]
  exact hrun []

theorem groupsFrom_cmds (o : Option (List Cmd × ℕ)) (h : nodes ≠ [] ∨ o = none) :
    (groupsFrom o nodes).flatMap Group.cmds = openedCmds o ++ nodes := by
  induction nodes generalizing o with
  | nil =>
    rw [h.resolve_left fun hne => hne rfl]; rfl
  | cons cur rest ih =>
    have hrest : ∀ {aggLen : ℕ}, ¬ Full aggLen rest → rest ≠ [] :=
      fun hno hnil => hno (.inl (List.isEmpty_iff.mpr hnil))
    cases o with
    | none =>
      rw [groupsFrom]
      split
      · rw [List.flatMap_cons, ih none (.inr rfl)]; rfl
      · split
        · rw [List.flatMap_cons, ih none (.inr rfl)]; rfl
        · next hfull =>
          rw [ih _ (.inl (hrest hfull))]; rfl
    | some p =>
      rw [groupsFrom]
      split
      · rw [List.flatMap_cons, ih none (.inr rfl)]; exact (List.append_cons _ _ _).symm
      · next hfull =>
        rw [ih _ (.inl (hrest hfull))]; exact (List.append_cons _ _ _).symm

section

variable {gs : List Group} {new : List Sent} (h : List.Forall₂ Group.Handed gs new)

include h

theorem handed_perm : (new.filterMap Sent.own ++ gs.flatMap Group.copied).Perm (gs.flatMap Group.cmds) := by
  induction h with
  | nil => exact .nil
  | @cons g x gs new hg _ ih =>
    rw [List.flatMap_cons, List.flatMap_cons]
    cases g with
    | alone cmd =>
      have hown : x.own = some cmd := hg.own
      rw [List.filterMap_cons_some hown]; exact ih.cons cmd
    | agg cmds =>
      have hown : x.own = none := hg.own
      rw [List.filterMap_cons_none hown]
      exact (List.perm_append_comm_assoc ..).trans (ih.append_left cmds)

theorem handed_decode : new.mapM (fun x => x.h2cb.decode) = some (gs.map Group.bodies) := by
  induction h with
  | nil => rfl
  | @cons g x gs new hg _ ih =>
    rw [List.mapM_cons, hg.decode, ih]; rfl

theorem handed_len : ∀ x ∈ new, x.h2cb.id = h2cAggId → x.h2cb.data.length ≤ rxdShortLen + h2cLongDataLen := by
  induction h with
  | nil => exact fun x hx => absurd hx List.not_mem_nil
  | cons hg _ ih =>
    intro x hx
    rcases List.mem_cons.mp hx with rfl | hx
    · exact hg.len
    · exact ih x hx

end

theorem bodies_in (gs : List Group) : List.Forall₂ Cmd.In (gs.flatMap Group.cmds) (gs.map Group.bodies).flatten := by
  induction gs with
  | nil => exact .nil
  | cons g gs ih =>
    rw [List.flatMap_cons, List.map_cons, List.flatten_cons]
    refine List.rel_append ?_ ih
    cases g with
    | alone cmd => exact .cons (.inl rfl) .nil
    | agg cmds =>
      refine List.forall₂_map_right_iff.mpr (List.forall₂_same.mpr fun cmd _ => .inr rfl)

/-- **When a call does what it is to do**: exactly when every transmission goes through. -/
theorem aggTx_iff (usb : Bool) (env : ℕ → AggEnv) (cmds : List Cmd) :
    AggTxHolds usb env cmds ↔ AllOk usb env 0 (groups cmds) := by
  have hdone : LoopDone usb env cmds ⟨none, 0, 0⟩ ⟨true, cmds, cmds.length, true, [], [], 0⟩ none :=
    aggTxLoop_done none _ _ rfl
  constructor
  · rintro ⟨s₀, ret, s, henq, hcall, -⟩
    by_contra hno
    obtain ⟨hret, hlocked⟩ := hdone.error hno
    rw [enqueued_eq] at henq
    cases henq
    unfold macH2cAggTx AggInfo.lock at hcall
    simp only [Bool.false_eq_true, if_false] at hcall
    rw [if_neg hret] at hcall
    unfold macH2cAggFlush AggInfo.lock at hcall
    rw [if_pos hlocked] at hcall; cases hcall
  · intro hok
    obtain ⟨v', s', new, copied, hloop, hs, hr, hall, hcopied⟩ := hdone.ok hok
    have hnew : s'.sent = new := hs
    have hrec : s'.recycled = (groups cmds).flatMap Group.copied := hr.trans hcopied
    have hcmds : (groups cmds).flatMap Group.cmds = cmds := groupsFrom_cmds none (.inr rfl)
    refine ⟨_, .success, { s' with queue := [], h2cAggPktNum := 0 }.unlock, enqueued_eq cmds, ?_, ?_, fun _ => ?_⟩
    · unfold macH2cAggTx AggInfo.lock
      simp only [Bool.false_eq_true, if_false, hloop, if_true]
    · show (s'.sent.filterMap Sent.own ++ s'.recycled).Perm cmds
      rw [hnew, hrec]; exact (handed_perm hall).trans (.of_eq hcmds)
    · refine ⟨⟨(groups cmds).map Group.bodies, ?_, ?_⟩, fun x hx => ?_, rfl, rfl⟩
      · show s'.sent.mapM _ = _
        rw [hnew]; exact handed_decode hall
      · have hin := bodies_in (groups cmds)
        rw [hcmds] at hin; exact hin
      · exact handed_len hall x (hnew ▸ hx)

def shortCmd : Cmd := ⟨.cmd, ⟨0, 1, 5, 0⟩, List.replicate 12 0, by decide, by decide⟩

/-- The platform refuses the only command: the call waits for a lock it holds. -/
theorem aggTx_waits : ¬ AggTxHolds true (fun _ => ⟨true, true, 0, false⟩) [shortCmd] := by
  rintro ⟨s₀, ret, s, henq, hcall, -⟩
  have hs₀ : some (⟨true, [shortCmd], 1, false, [], [], 0⟩ : AggInfo) = some s₀ := henq
  cases hs₀
  have hnone : macH2cAggTx true (fun _ => ⟨true, true, 0, false⟩) ⟨true, [shortCmd], 1, false, [], [], 0⟩ = none := rfl
  rw [hnone] at hcall; cases hcall

end Rtl8852cu.H2c
