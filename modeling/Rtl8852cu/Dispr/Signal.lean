import Rtl8852cu.Dispr.Types

/-!
# Bitmaps, token operations and the signals between the dispatchers

The helpers of `phl_util.h` on bitmaps; the queue of token operations; and the calls by which a
dispatcher asks the other for clearance, releases it and reports that it is ready
(`phl_cmd_dispatch_engine.c`).  `notify_dispr_thread` only wakes the shared thread, which may run at
any time, so it is left out.
-/

namespace Rtl8852cu.Dispr

variable {N : ℕ}

/-! ### Bitmaps -/

/-- The ids a bitmap of `MODL_MASK_LEN` bytes has a bit for. -/
def maskIds (ids : List ℕ) : Finset ℕ := (ids.filter fun id => id / 8 < modlMaskLen).toFinset

def addBitmapBit (bitmap : Finset ℕ) (ids : List ℕ) : Finset ℕ := bitmap ∪ maskIds ids

def clrBitmapBit (bitmap : Finset ℕ) (ids : List ℕ) : Finset ℕ := bitmap \ maskIds ids

def chkBitmapBit (bitmap : Finset ℕ) (id : ℕ) : Bool :=
  decide (id / 8 < modlMaskLen) && decide (id ∈ bitmap)

def isDisprCtrl (mdlId : ℕ) : Bool := decide (mdlId < phlBkMdlRoleStart)

/-- `_get_mdl_priority`; `none` is `PHL_MDL_PRI_MAX`. -/
def getMdlPriority (id : ℕ) : Option MdlPri :=
  if id < phlBkMdlRoleStart then none
  else if id ≤ phlBkMdlRoleEnd then some .role
  else if id ≤ phlBkMdlMdryEnd then some .mandatory
  else if id ≤ phlBkMdlOptEnd then some .optional
  else none

/-! ### Handles -/

def genValidHdl (idx : ℕ) : ℕ := 2 ^ 31 ||| idx

def isHdlValid (hdl : ℕ) : Bool := hdl.testBit 31

def getMsgIdxFromHdl (hdl : ℕ) : ℕ := hdl % 2 ^ 16

def getReqIdxFromHdl (hdl : ℕ) : ℕ := hdl % 2 ^ 16 % 2 ^ 8

/-! ### Token operations -/

namespace TokenQs

/-- The `struct phl_token_op_info` a reference stands for. -/
def info (t : TokenQs) : OpRef → PhlTokenOpInfo
  | .add r => (t.reqPool r).addReqInfo
  | .free r => (t.reqPool r).freeReqInfo
  | .renew => t.renewReqInfo

def setInfo (t : TokenQs) (o : OpRef) (x : PhlTokenOpInfo) : TokenQs :=
  match o with
  | .add r => t.onReq r fun ex => { ex with addReqInfo := x }
  | .free r => t.onReq r fun ex => { ex with freeReqInfo := x }
  | .renew => { t with renewReqInfo := x }

/-- The call the request of an operation was taken for. -/
def callOf (t : TokenQs) : OpRef → ℕ
  | .add r | .free r => (t.reqPool r).call
  | .renew => 0

/-- `push_back_token_op_info`: an info that is in use is not queued again. -/
def pushBackTokenOpInfo (t : TokenQs) (o : OpRef) (type : TokenOpType) (data : ℕ) : TokenQs × Bool :=
  if (t.info o).used then (t, false)
  else
    ({ t.setInfo o ⟨true, some type, data⟩ with
        opQ := t.opQ ++ [o]
        relinked := t.relinked || t.handling.any fun h => decide (h.1 = o) }, true)

end TokenQs

def disprEnqueueTokenOpInfo (i : Fin 2) (o : OpRef) (type : TokenOpType) (data : ℕ) (e : Eng N) : Eng N :=
  e.onTok i fun t => (t.pushBackTokenOpInfo o type data).1

/-- Queue `renew_req_info`. -/
def enqueueRenew (i : Fin 2) (e : Eng N) : Eng N :=
  disprEnqueueTokenOpInfo i .renew .renewCmdReq 0xff e

/-! ### Clearance -/

def disprClearanceAcquire (i : Fin 2) (e : Eng N) : Eng N :=
  e.onStatus i fun s => { s with clearance := true }

def disprClearanceRelease (i : Fin 2) (e : Eng N) : Eng N :=
  enqueueRenew i (e.onStatus i fun s => { s with clearance := false })

def disprExclusiveReady (i : Fin 2) (renewReq : Bool) (e : Eng N) : Eng N :=
  if (e.d i).status.exclusiveUse then e
  else
    let e := e.onStatus i fun s => { s with exclusiveUse := true }
    if renewReq then enqueueRenew i e else e

/-- A call through `_disp_eng_get_dispr_by_idx`, which finds only the dispatchers there are. -/
def onBand (i : Fin 2) (f : Eng N → Eng N) (e : Eng N) : Eng N := if i.val < e.phyNum then f e else e

def phlDispEngClearanceAcquire (i : Fin 2) : Eng N → Eng N := onBand i (disprClearanceAcquire i)

def phlDispEngClearanceRelease (i : Fin 2) : Eng N → Eng N := onBand i (disprClearanceRelease i)

def phlDispEngExclusiveReady (i : Fin 2) : Eng N → Eng N := onBand i (disprExclusiveReady i true)

/-- `ntfyidx`: the other band. -/
def ntfyidx (i : Fin 2) : Fin 2 := if i = 0 then 1 else 0

/-- `cmd_token_complete` gives the clearance of the other dispatcher back. -/
def releaseExclusive (i : Fin 2) (e : Eng N) : Eng N :=
  if (e.d i).status.exclusiveUse then
    phlDispEngClearanceRelease (ntfyidx i) (e.onStatus i fun s => { s with exclusiveUse := false })
  else e

/-- Tell the other dispatcher that its exclusive request may run. -/
def signalReady (i : Fin 2) (e : Eng N) : Eng N :=
  if (e.d i).status.clearance then phlDispEngExclusiveReady (ntfyidx i) e else e

def cmdTokenComplete (i : Fin 2) (e : Eng N) : Eng N :=
  if e.phyNum < 2 then e else signalReady i (releaseExclusive i e)

def onAbortMsgComplete (i : Fin 2) (e : Eng N) : Eng N :=
  enqueueRenew i (cmdTokenComplete i (e.onStatus i fun s => { s with waitAbortMsgDone := false }))

end Rtl8852cu.Dispr
