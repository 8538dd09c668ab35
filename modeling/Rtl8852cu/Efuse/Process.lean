import Rtl8852cu.Lib.Reach
import Mathlib.Algebra.Ring.Nat

/-!
# The process of the efuse

`phl/hal_g6/mac/mac_ax/efuse.c`: a call on the physical efuse takes `sm.efuse` from idle, switches to its bank,
works there, and gives both back.  Its steps may fail; what they return is part of the call, and so is what
`R_AX_IC_PWR_STATE` reads as.  Without memory for what the firmware dumps, `c2h_dump_efuse_hdl` makes the
process idle in the middle of a call.
-/

namespace Rtl8852cu.Efuse

open Lib

/-- Return values, of `errors.h`. -/
def macSuccess : ℕ := 0
def macNoItem : ℕ := 11
def macNoFw : ℕ := 22
def macProcBusy : ℕ := 23
def macProcErr : ℕ := 24
def macEfuseBank : ℕ := 25
def macEfuseSize : ℕ := 28
def macSysSteErr : ℕ := 121

/-- The values of `sm.efuse`, those below `MAC_AX_EFUSE_MAX`. -/
inductive EfuseState where
  | idle | phy | logMap | logMask
  deriving DecidableEq

/-- `enum mac_ax_efuse_bank`; `last` is no bank. -/
inductive EfuseBank where
  | wifi | bt | last
  deriving DecidableEq

/-- `enum mac_ax_efuse_read_cfg`. -/
inductive ReadCfg where
  | auto | drv | fw
  deriving DecidableEq

/-- What a call leaves behind: `sm.efuse`, the bank of `bank_efuse_info`, and `B_AX_BT_DISN_EN`. -/
structure Process where
  efuse : EfuseState
  bank : EfuseBank
  btDisnEn : Bool

/-- The sizes of `hw_info`, and `OTP_test`. -/
structure EfuseSizes where
  wlEfuseSize : ℕ
  btEfuseSize : ℕ
  efuseSize : ℕ
  secDataEfuseSize : ℕ
  hiddenEfuseRfSize : ℕ
  otpTest : Bool

/-- What the steps of a call do.  `pwrAct k` is whether the `k`-th read finds the whole system active. -/
structure StepRets where
  pwrAct : ℕ → Bool
  switchBank : ℕ
  mapInit : ℕ
  /-- The dump, read or write. -/
  access : ℕ
  /-- `c2h_dump_efuse_hdl` had no memory. -/
  c2hNoBuf : Bool
  switchBack : ℕ

/-- A call, with `sm.fwdl == MAC_AX_FWDL_INIT_RDY` where it is asked for. -/
inductive EfuseCall where
  | dumpWl (cfg : ReadCfg) (fwRdy : Bool)
  | dumpBt (cfg : ReadCfg) (fwRdy : Bool)
  | write (addr : ℕ) (bank : EfuseBank)
  | read (addr size : ℕ) (bank : EfuseBank)
  /-- `rf`: the configuration is `MAC_AX_EFUSE_HIDDEN_RF`. -/
  | readHidden (addr size : ℕ) (rf : Bool)

namespace Process

/-! ### The state machine -/

def efuseProcCk (s : Process) : ℕ := if s.efuse ≠ .idle then macProcBusy else macSuccess

/-- The loop on `R_AX_IC_PWR_STATE`: whether it is left before `cnt` is 0. -/
def waitAct (pwrAct : ℕ → Bool) : ℕ → Bool
  | 0 => false
  | cnt + 1 => pwrAct 0 || waitAct (fun k => pwrAct (k + 1)) cnt

def btDisWaitCnt : ℕ := 100

/-- `cnv_efuse_state`; `mac_set_bt_dis` always succeeds. -/
def cnvEfuseState (s : Process) (dest : EfuseState) (pwrAct : ℕ → Bool) : ℕ × Process :=
  if s.efuse = dest then (macProcErr, s)
  else if dest ≠ .idle ∧ s.efuse ≠ .idle then (macProcErr, s)
  else
    let s := { s with efuse := dest }
    if dest ≠ .idle then
      let s := { s with btDisnEn := false }
      if waitAct pwrAct btDisWaitCnt then (macSuccess, s) else (macSysSteErr, s)
    else (macSuccess, { s with btDisnEn := true })

/-- `switch_efuse_bank`: a switch that fails has no effect. -/
def switchEfuseBank (s : Process) (bank : EfuseBank) (ret : ℕ) : ℕ × Process :=
  if ret ≠ macSuccess then (ret, s) else (macSuccess, { s with bank := bank })

/-- An exit: the process becomes idle, and `ret` is returned if it could. -/
def exit (s : Process) (pwrAct : ℕ → Bool) (ret : ℕ) : ℕ × Process :=
  let r := s.cnvEfuseState .idle pwrAct
  if r.1 ≠ macSuccess then r else (ret, r.2)

/-- What all calls do behind their own checks: for a bank, with `efuse_map_init` (`init`) or not. -/
def access (bank : EfuseBank) (init : Bool) (o : StepRets) (s : Process) : ℕ × Process :=
  if s.efuseProcCk ≠ macSuccess then (s.efuseProcCk, s)
  else
    let r := s.cnvEfuseState .phy o.pwrAct
    if r.1 ≠ macSuccess then r
    else
      let q := r.2.switchEfuseBank bank o.switchBank
      if q.1 ≠ macSuccess then q.2.exit o.pwrAct q.1
      else if init && o.mapInit ≠ macSuccess then (o.mapInit, q.2)
      else
        let s := if o.c2hNoBuf then { q.2 with efuse := .idle } else q.2
        if o.access ≠ macSuccess then s.exit o.pwrAct o.access
        else if bank = .bt then
          let q := s.switchEfuseBank .wifi o.switchBack
          if q.1 ≠ macSuccess then q.2.exit o.pwrAct q.1 else q.2.exit o.pwrAct macSuccess
        else s.exit o.pwrAct macSuccess

/-! ### The calls -/

def dumpCk (cfg : ReadCfg) (fwRdy : Bool) : ℕ :=
  if cfg = .fw ∧ ¬ fwRdy then macNoFw else macSuccess

def macDumpEfuseMapWl (cfg : ReadCfg) (fwRdy : Bool) (o : StepRets) (s : Process) : ℕ × Process :=
  if dumpCk cfg fwRdy ≠ macSuccess then (dumpCk cfg fwRdy, s) else access .wifi true o s

def macDumpEfuseMapBt (cfg : ReadCfg) (fwRdy : Bool) (o : StepRets) (s : Process) : ℕ × Process :=
  if dumpCk cfg fwRdy ≠ macSuccess then (dumpCk cfg fwRdy, s) else access .bt true o s

def otpPhySize : ℕ := 0x800

/-- The size of a bank, for reads and writes. -/
def bankSize (hw : EfuseSizes) : EfuseBank → Option ℕ
  | .wifi => some (if hw.otpTest then otpPhySize else hw.wlEfuseSize)
  | .bt => some hw.btEfuseSize
  | .last => none

def writeCk (hw : EfuseSizes) (addr : ℕ) (bank : EfuseBank) : ℕ :=
  match bankSize hw bank with
  | none => macEfuseBank
  | some efuseSize => if addr ≥ efuseSize then macEfuseSize else macSuccess

/-- A write does not wait for the firmware. -/
def macWriteEfuse (hw : EfuseSizes) (addr : ℕ) (bank : EfuseBank) (o : StepRets) (s : Process) : ℕ × Process :=
  if writeCk hw addr bank ≠ macSuccess then (writeCk hw addr bank, s)
  else access bank false { o with c2hNoBuf := false } s

def readCk (hw : EfuseSizes) (addr size : ℕ) (bank : EfuseBank) : ℕ :=
  match bankSize hw bank with
  | none => macEfuseBank
  | some efuseSize =>
    if addr ≥ efuseSize ∨ (addr + size) % 2 ^ 32 > efuseSize then macEfuseSize else macSuccess

def macReadEfuse (hw : EfuseSizes) (addr size : ℕ) (bank : EfuseBank) (o : StepRets) (s : Process) : ℕ × Process :=
  if readCk hw addr size bank ≠ macSuccess then (readCk hw addr size bank, s)
  else access bank false { o with c2hNoBuf := false } s

def hiddenCk (hw : EfuseSizes) (addr size : ℕ) (rf : Bool) : ℕ :=
  let logSecSize := hw.efuseSize + hw.secDataEfuseSize
  if rf then
    if addr < logSecSize ∨ (addr + size) % 2 ^ 32 > logSecSize + hw.hiddenEfuseRfSize then
      macEfuseSize
    else macSuccess
  else macNoItem

def macReadHiddenEfuse (hw : EfuseSizes) (addr size : ℕ) (rf : Bool) (o : StepRets) (s : Process) : ℕ × Process :=
  if hiddenCk hw addr size rf ≠ macSuccess then (hiddenCk hw addr size rf, s)
  else access .wifi true { o with c2hNoBuf := false } s

def call (hw : EfuseSizes) (s : Process) : EfuseCall → StepRets → ℕ × Process
  | .dumpWl cfg fwRdy, o => macDumpEfuseMapWl cfg fwRdy o s
  | .dumpBt cfg fwRdy, o => macDumpEfuseMapBt cfg fwRdy o s
  | .write addr bank, o => macWriteEfuse hw addr bank o s
  | .read addr size bank, o => macReadEfuse hw addr size bank o s
  | .readHidden addr size rf, o => macReadHiddenEfuse hw addr size rf o s

/-! ### What a call leaves behind -/

def Restored (s : Process) : Prop := s.efuse = .idle ∧ s.bank = .wifi

instance (s : Process) : Decidable s.Restored := inferInstanceAs (Decidable (_ ∧ _))

/-- The steps that leave something behind: the system does not become active, `efuse_map_init` fails, or, on the BT
bank, the access or the way back. -/
def Strands (bank : EfuseBank) (init : Bool) (o : StepRets) : Prop :=
  ¬ waitAct o.pwrAct btDisWaitCnt ∨ o.switchBank = macSuccess ∧ (init ∧ o.mapInit ≠ macSuccess ∨
      bank = .bt ∧ (o.access ≠ macSuccess ∨ o.switchBack ≠ macSuccess))

instance (bank : EfuseBank) (init : Bool) (o : StepRets) : Decidable (Strands bank init o) :=
  inferInstanceAs (Decidable (_ ∨ _ ∧ (_ ∧ _ ∨ _ ∧ (_ ∨ _))))

variable {s : Process} {bank : EfuseBank} {init : Bool} {o : StepRets}

theorem exit_spec (s : Process) (pwrAct : ℕ → Bool) (ret : ℕ) :
    (s.exit pwrAct ret).2.efuse = .idle ∧ (s.exit pwrAct ret).2.bank = s.bank := by
  unfold exit cnvEfuseState
  by_cases h : s.efuse = .idle
  · rw [if_pos h]; exact ⟨h, rfl⟩
  · rw [if_neg h]; exact ⟨rfl, rfl⟩

theorem exit_restored (s : Process) (pwrAct : ℕ → Bool) (ret : ℕ) :
    (s.exit pwrAct ret).2.Restored ↔ s.bank = .wifi := by
  obtain ⟨hidle, hbank⟩ := exit_spec s pwrAct ret
  unfold Restored
  rw [hbank]; exact and_iff_right hidle

theorem cnvEfuseState_phy (h : s.efuse = .idle) (pwrAct : ℕ → Bool) : s.cnvEfuseState .phy pwrAct =
      (if waitAct pwrAct btDisWaitCnt then macSuccess else macSysSteErr,
        { s with efuse := .phy, btDisnEn := false }) := by
  unfold cnvEfuseState
  rw [if_neg (by rw [h]; decide), if_neg fun hne => hne.2 h]
  simp only
  rw [if_pos (by decide)]
  split <;> rfl

theorem access_restores (hs : s.Restored) (hbank : bank ≠ .last) :
    (access bank init o s).2.Restored ↔ ¬ Strands bank init o := by
  unfold access Strands
  have hck : s.efuseProcCk = macSuccess := if_neg (not_not_intro hs.1)
  rw [if_neg (not_not_intro hck), cnvEfuseState_phy hs.1]
  simp only
  by_cases hact : waitAct o.pwrAct btDisWaitCnt
  · rw [if_pos hact, if_neg (by decide)]
    unfold switchEfuseBank
    by_cases hswitch : o.switchBank = macSuccess
    · rw [if_neg (not_not_intro hswitch)]
      simp only [ne_eq, not_true_eq_false, if_false]
      by_cases hinit : init ∧ o.mapInit ≠ macSuccess
      · -- the return without an exit
        rw [if_pos (by simpa using hinit)]
        exact ⟨fun h => (nomatch h.1), fun h => absurd (.inr ⟨hswitch, .inl hinit⟩) h⟩
      · rw [if_neg (by simpa using hinit)]
        generalize hs₁ : (if o.c2hNoBuf then _ else _ : Process) = s₁
        have hbank₁ : s₁.bank = bank := by
          rw [← hs₁]
          split <;> rfl
        by_cases haccess : o.access = macSuccess
        · rw [if_neg (not_not_intro haccess)]
          by_cases hbt : bank = .bt
          · rw [if_pos hbt]
            by_cases hback : o.switchBack = macSuccess
            · simp [hback, hact, hswitch, hinit, haccess, exit_restored]
            · simp [hback, hact, hswitch, hinit, haccess, hbt, exit_restored, hbank₁]
          · rw [if_neg hbt, exit_restored, hbank₁]
            cases bank with
            | wifi => simp [hact, hinit]
            | bt => exact absurd rfl hbt
            | last => exact absurd rfl hbank
        · rw [if_pos haccess, exit_restored, hbank₁]
          cases bank with
          | wifi => simp [hact, hinit]
          | bt => simp [hswitch, haccess]
          | last => exact absurd rfl hbank
    · -- the switch failed: still on the bank before
      rw [if_pos hswitch]
      simp only
      rw [if_pos hswitch, exit_restored]
      exact iff_of_true hs.2 fun h => h.elim (fun h => h hact) fun h => hswitch h.1
  · rw [if_neg hact, if_pos (by decide)]
    exact ⟨fun h => (nomatch h.1), fun h => absurd (.inl hact) h⟩

end Process

/-! ### Runs -/

namespace EfuseCall

variable (hw : EfuseSizes)

def ck : EfuseCall → ℕ
  | dumpWl cfg fwRdy => Process.dumpCk cfg fwRdy
  | dumpBt cfg fwRdy => Process.dumpCk cfg fwRdy
  | write addr bank => Process.writeCk hw addr bank
  | read addr size bank => Process.readCk hw addr size bank
  | readHidden addr size rf => Process.hiddenCk hw addr size rf

def bank : EfuseCall → EfuseBank
  | dumpWl .. => .wifi
  | dumpBt .. => .bt
  | write _ bank => bank
  | read _ _ bank => bank
  | readHidden .. => .wifi

/-- Whether there is an `efuse_map_init`. -/
def init : EfuseCall → Bool
  | write .. => false
  | read .. => false
  | _ => true

def Strands (c : EfuseCall) (o : StepRets) : Prop :=
  c.ck hw = macSuccess ∧ Process.Strands c.bank c.init o

instance (c : EfuseCall) (o : StepRets) : Decidable (c.Strands hw o) :=
  inferInstanceAs (Decidable (_ ∧ _))

variable {hw}

theorem bank_ne_last {c : EfuseCall} (h : c.ck hw = macSuccess) : c.bank ≠ .last := by
  cases c with
  | dumpWl | dumpBt | readHidden => exact fun heq => nomatch heq
  | write addr bank | read addr size bank =>
    rintro rfl
    exact nomatch h

end EfuseCall

namespace Process

variable {hw : EfuseSizes} {s : Process}

theorem call_restores (hs : s.Restored) (c : EfuseCall) (o : StepRets) :
    (call hw s c o).2.Restored ↔ ¬ c.Strands hw o := by
  have heq : ∃ o', (call hw s c o).2 = (if c.ck hw ≠ macSuccess then (c.ck hw, s) else access c.bank c.init o' s).2 ∧
        (Strands c.bank c.init o' ↔ Strands c.bank c.init o) := by
    cases c with
    | dumpWl | dumpBt => exact ⟨o, rfl, Iff.rfl⟩
    | write | read | readHidden => exact ⟨{ o with c2hNoBuf := false }, rfl, Iff.rfl⟩
  obtain ⟨o', hcall, hstrands⟩ := heq
  rw [hcall]
  by_cases hck : c.ck hw = macSuccess
  · rw [if_neg (not_not_intro hck), access_restores hs (EfuseCall.bank_ne_last hck), hstrands]
    exact not_congr (and_iff_right hck).symm
  · rw [if_pos hck]; exact iff_of_true hs fun h => hck h.1

def step (hw : EfuseSizes) (s : Process) (c : EfuseCall × StepRets) : Process :=
  (s.call hw c.1 c.2).2

/-- **A run of calls is idle on the WiFi bank after each** exactly when none of them strands. -/
theorem restored_run (hw : EfuseSizes) (hs : s.Restored) (cs : List (EfuseCall × StepRets)) :
    (∀ pre, pre <+: cs → (pre.foldl (step hw) s).Restored) ↔ ∀ c ∈ cs, ¬ c.1.Strands hw c.2 := by
  have hlegal : Legal (step hw) (fun _ _ => True) s cs := by
    clear hs
    induction cs generalizing s with
    | nil => trivial
    | cons c cs ih => exact ⟨trivial, ih⟩
  rw [Legal.always_iff (B := fun _ c => c.1.Strands hw c.2) hs (fun _ h => h)
    (fun s c hs _ h => (call_restores hs c.1 c.2).mpr h)
    (fun s c hs _ h hr => (call_restores hs c.1 c.2).mp hr h) hlegal]
  constructor
  · intro h c hc
    obtain ⟨pre, post, rfl⟩ := List.append_of_mem hc
    exact h pre c ⟨post, by simp⟩
  · exact fun h pre c hpre => h c (hpre.subset (by simp))

def sizes8852c : EfuseSizes := ⟨1536, 512, 1216, 192, 96, false⟩

def allOk : StepRets := ⟨fun _ => true, 0, 0, 0, false, 0⟩

/-- A dump without memory for its map, and a read. -/
def noMemory : List (EfuseCall × StepRets) :=
  [(.dumpWl .drv false, { allOk with mapInit := 14 }), (.read 0 1 .wifi, allOk)]

/-- A read of the WiFi map with all its steps, then a dump of the BT map. -/
theorem restored_run_some : (List.foldl (step sizes8852c) ⟨.idle, .wifi, true⟩
      [(.read 0 1 .wifi, allOk), (.dumpBt .auto true, allOk)]).Restored :=
  (restored_run sizes8852c (by decide) _).mpr (by decide) _ List.prefix_rfl

/-- Without memory for its map a dump returns with the process taken, and the read behind it finds it busy. -/
theorem noMemory_strands : ¬ ∀ (hw : EfuseSizes) (s : Process) (cs : List (EfuseCall × StepRets)),
    s.Restored → ∀ pre, pre <+: cs → (pre.foldl (step hw) s).Restored ∧
      ∀ c, pre ++ [c] <+: cs → (call hw (pre.foldl (step hw) s) c.1 c.2).1 ≠ macProcBusy := by
  intro h
  have hbusy := (h sizes8852c ⟨.idle, .wifi, true⟩ noMemory (by decide) (noMemory.take 1)
    (List.take_prefix _ _)).2 (.read 0 1 .wifi, allOk) (List.prefix_refl _)
  exact hbusy (by decide)

end Process

end Rtl8852cu.Efuse
