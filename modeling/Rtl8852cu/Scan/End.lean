import Rtl8852cu.Scan.Select

/-!
# The end of a scan

The life of a scan request of `phl_cmd_scan.c` from `_phl_cmd_scan_req_submit` to `scan_complete`: `_phl_cmd_scan_req_acquired`,
`_cmd_scan_hdl_internal_evt`, `_cmd_scan_fail_ev_hdlr`, `_cmd_scan_timer`, `_cmd_abort_notify` and `_cmd_scan_end`, with what the
dispatcher of each band does with the token request and its messages.  A scan control is known by its band, `rlink->hw_band`.
Which channel is next and what a handler does on the air are left out.
-/

namespace Rtl8852cu.ScanEnd

open Scan (HwBand)

inductive Evt
  | scanStart | listenStateExpire | swchStart | swchDone | scanEnd
  deriving DecidableEq

/-- The token request of a band in the dispatcher; `freed` from `phl_disp_eng_free_token` until the operation is carried out. -/
inductive Req
  | none | waiting | running | freed | gone
  deriving DecidableEq

/-- `enum scan_result` -/
inductive Result
  | abort | cancel | complete
  deriving DecidableEq

/-- `phl_disp_eng_send_msg` for the message of an abort; `fatal` when the driver goes away. -/
inductive Send
  | ok | failed | fatal
  deriving DecidableEq

/-- A band of the request: its flags in `param->state`, the token request with a queued operation to cancel it, the messages in the
queues of the dispatcher, the message of the abort, the timer (`none` unless initialised, whether it is armed), how often
`_cmd_scan_end` has restored the hardware, and whether the band was cancelled or aborted. -/
structure Band where
  acquire : Bool
  started : Bool
  dfIo : Bool
  ended : Bool
  req : Req
  cancelled : Bool
  queue : List Evt
  abortMsg : Bool
  timer : Option Bool
  restores : ℕ
  stopped : Bool

/-- A band of which nothing is known yet. -/
def Band.init : Band where
  acquire := false
  started := false
  dfIo := false
  ended := false
  req := .none
  cancelled := false
  queue := []
  abortMsg := false
  timer := none
  restores := 0
  stopped := false

/-- Something is under way that goes on with the scan of the band. -/
def Band.going (x : Band) : Bool := x.cancelled || x.queue.any (fun e => e ≠ .swchDone) || x.timer = some true

def Band.take (x : Band) (i : ℕ) : Band := { x with queue := x.queue.eraseIdx i }

/-- `struct rtw_phl_scan_param`: `sctrl` are the bands of its scan controls, none once `sctrl_num` is 0; `next` is where
`_phl_cmd_scan_req_submit` stands.  `reports` are the results given to `scan_complete`; `late` when the request was touched after
that, or through NULL. -/
structure Param where
  band : HwBand → Band
  sctrl : List HwBand
  next : ℕ
  refused : Bool
  result : Result
  reports : List Result
  late : Bool

namespace Param

variable (p : Param) (b : HwBand)

def modify (f : Band → Band) : Param := { p with band := Function.update p.band b (f (p.band b)) }

/-- `TEST_SCAN_FLAGS(param->state, CMD_SCAN_END)`: the flag of either band. -/
def anyEnd : Bool := (p.band .band0).ended || (p.band .band1).ended

/-- A timer or a handler uses the request. -/
def touch : Param := { p with late := p.late || !p.reports.isEmpty }

/-- `indicate`: the band is the last one. -/
def indicate : Bool := !(1 < p.sctrl.length && !p.anyEnd)

/-- `_cmd_scan_req_deinit`, `sctrl_num = 0` and `scan_complete`. -/
def complete : Param := { p with sctrl := [], reports := p.reports ++ [p.result] }

/-- The end of a band: its flag, what else is written, and `scan_complete` for the last one. -/
def endWith (f : Band → Band) : Param :=
  let indicate := p.indicate
  let p := p.modify b fun x => f { x with ended := true }
  if indicate then p.complete else p

/-- What `_cmd_scan_end` does with a scan control. -/
def release (x : Band) : Band :=
  { x with
    timer := none
    restores := if x.started && !x.dfIo then x.restores + 1 else x.restores }

def cmdScanEnd : Param :=
  if b ∈ p.sctrl then p.endWith b release else p.endWith b id

def cmdAbortNotify (send : Send) : Param :=
  let p := p.touch
  if (p.band b).acquire then
    let p := ({ p with result := .cancel } : Param).modify b fun x => { x with stopped := true }
    if b ∈ p.sctrl then
      match send with
      | .ok => p.modify b fun x => { x with abortMsg := true }
      | .failed => p.cmdScanEnd b
      | .fatal => (p.modify b fun x => { x with dfIo := true }).cmdScanEnd b
    else { p with late := true } -- the callback reads the request through the empty message
  else ({ p with result := .abort } : Param).endWith b fun x => { x with stopped := true }

/-- What a handler meets: the scan takes too long; the channel is kept or there is another one; the message is sent; the handled
message could not do IO. -/
structure Turn where
  timeUp : Bool
  go : Bool
  send : Bool
  cannotIo : Bool

/-- A message to the dispatcher of the band. -/
def send (ok : Bool) (e : Evt) : Param :=
  if ok then p.modify b fun x => { x with queue := x.queue ++ [e] } else p

/-- `phl_disp_eng_free_token` for the request that runs: an operation that cancels it is in the way. -/
def freeToken : Option Param :=
  if (p.band b).cancelled then none else some (p.modify b fun x => { x with req := .freed })

def cmdScanFailEvHdlr (e : Evt) (t : Turn) : Param :=
  if b ∈ p.sctrl then
    match e with
    | .scanEnd =>
      match p.freeToken b with
      | some p => (p.modify b fun x => { x with dfIo := x.dfIo || t.cannotIo }).cmdScanEnd b
      | none => p
    | _ => p.send b t.send .scanEnd
  else p

def cmdScanHdlInternalEvt (e : Evt) (t : Turn) : Param :=
  if t.timeUp then p.cmdScanFailEvHdlr b e t
  else if b ∈ p.sctrl then
    match e with
    | .scanStart => (p.modify b fun x => { x with started := true }).send b t.send .swchStart
    | .listenStateExpire =>
      if t.go then p.modify b fun x => { x with timer := some true } else p.send b t.send .swchStart
    | .swchStart =>
      if t.go then (p.modify b fun x => { x with timer := some true }).send b t.send .swchDone
      else p.send b t.send .scanEnd
    | .swchDone => p
    | .scanEnd =>
      match p.freeToken b with
      | some p => ({ p with result := .complete } : Param).cmdScanEnd b
      | none => p
  else p

def cmdScanReqEvHdlr (e : Evt) (fail : Bool) (t : Turn) : Param :=
  let p := p.touch
  if fail then p.cmdScanFailEvHdlr b e t else p.cmdScanHdlInternalEvt b e t

/-- `_phl_cmd_scan_req_acquired`; the dispatcher drops the request when it fails. -/
def cmdScanReqAcquired (timeUp ok : Bool) : Param :=
  let p := p.touch
  if !timeUp ∧ b ∈ p.sctrl ∧ ok then
    p.modify b fun x =>
      { x with req := .running, timer := some false, acquire := true, queue := x.queue ++ [.scanStart] }
  else (p.modify b fun x => { x with req := .gone }).cmdAbortNotify b .ok

/-- What a turn of `_phl_cmd_scan_req_submit` does for a scan control. -/
inductive Add
  | added | empty | failed
  deriving DecidableEq

/-- A turn of the loop of `_phl_cmd_scan_req_submit`; a failure of the first one refuses the request. -/
def submit (add : Add) : Param :=
  match p.sctrl[p.next]? with
  | none => p
  | some b =>
    match add with
    | .added => { p.modify b fun x => { x with req := .waiting } with next := p.next + 1 }
    | .empty => { p.modify b fun x => { x with ended := true } with next := p.next + 1 }
    | .failed =>
      if p.next = 0 then { p with refused := true, sctrl := [] }
      else { p.modify b fun x => { x with ended := true } with next := p.next + 1 }

def cmdScanTimer (ok : Bool) : Param := p.touch.send b ok .listenStateExpire

inductive Act
  | submit (add : Add)
  | grant (b : HwBand) (timeUp ok : Bool)
  | deliver (b : HwBand) (i : ℕ) (fail : Bool) (t : Turn)
  | drop (b : HwBand) (i : ℕ) (clrSndr ok : Bool)
  | timer (b : HwBand) (ok : Bool)
  | cancel (b : HwBand)
  | abort (b : HwBand) (send : Send)
  | abortDone (b : HwBand) (cannotIo : Bool)
  | freeDone (b : HwBand)

/-- One step; what cannot happen changes nothing. -/
def step (p : Param) : Act → Param
  | .submit add => p.submit add
  | .grant b timeUp ok => if (p.band b).req = .waiting then p.cmdScanReqAcquired b timeUp ok else p
  | .deliver b i fail t =>
    -- a freed request gets no message: the operation comes before them
    if (p.band b).req = .running then
      match (p.band b).queue[i]? with
      | some e => (p.modify b fun x => x.take i).cmdScanReqEvHdlr b e fail t
      | none => p
    else p
  | .drop b i clrSndr ok =>
    -- `_cmd_scan_timer_notify_cb` sends the message of the timer again
    match (p.band b).queue[i]? with
    | some e =>
      let p := p.modify b fun x => x.take i
      if e = .listenStateExpire ∧ clrSndr then p.cmdScanTimer b ok else p
    | none => p
  | .timer b ok =>
    if (p.band b).timer = some true then (p.modify b fun x => { x with timer := some false }).cmdScanTimer b ok else p
  | .cancel b =>
    if (p.band b).req = .waiting ∨ (p.band b).req = .running then p.modify b fun x => { x with cancelled := true } else p
  | .abort b send =>
    match (p.band b).req with
    | .none | .gone => p
    | _ => (p.modify b fun x => { x with req := .gone, queue := [] }).cmdAbortNotify b send
  | .abortDone b cannotIo =>
    if (p.band b).abortMsg then
      (p.touch.modify b fun x => { x with abortMsg := false, dfIo := x.dfIo || cannotIo }).cmdScanEnd b
    else p
  | .freeDone b =>
    if (p.band b).req = .freed then p.modify b fun x => { x with req := .gone, queue := [] } else p

/-- A request with the scan controls `sctrl`. -/
def init (sctrl : List HwBand) (result : Result) : Param where
  band _ := .init
  sctrl := sctrl
  next := 0
  refused := false
  result := result
  reports := []
  late := false

end Param

end Rtl8852cu.ScanEnd
