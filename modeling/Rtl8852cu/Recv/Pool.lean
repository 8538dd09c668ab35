import Rtl8852cu.Recv.Defrag

/-!
# The pool of receive frames

`rtw_alloc_recvframe`, `rtw_free_recvframe` and `rtw_core_rx_process` of `core/rtw_recv.c`, with
`rtw_mi_buddy_clone_bcmc_packet` of `core/rtw_mi.c`.

A `union recv_frame` is a number; `Pool` has its list node (the free queue or a `defrag_q`), its
contents and whether `pkt` is set.  The functions that only look at a frame answer through the
packet: an `IfaceRx` says what the checks of one interface find, an `RxPkt` what those of
`rtw_core_rx_process` do, so a statement about all packets is one about all answers.  What passes a
frame on, links it or gives it back is the code of the source.
-/

namespace Rtl8852cu.Recv

abbrev FrameId := ℕ

structure Pool where
  /-- `free_recv_queue`. -/
  free : List FrameId
  /-- `sta_recvpriv.defrag_q`. -/
  defragQ : StaId → List FrameId
  hdr : FrameId → RecvFrame
  /-- `u.hdr.pkt` is not NULL. -/
  pkt : FrameId → Bool
  /-- The frames given back while they were in the free queue. -/
  again : List FrameId

/-- The frames `0`, …, `n - 1`, all of them free. -/
def Pool.init (n : ℕ) (hdr : FrameId → RecvFrame) : Pool :=
  ⟨List.range n, fun _ => [], hdr, fun _ => false, []⟩

def rtwAllocRecvframe (st : Pool) : Option (FrameId × Pool) :=
  match st.free with
  | f :: rest => some (f, { st with free := rest })
  | [] => none

/-- `rtw_free_recvframe` on a frame: its node is taken out of the list it is in and linked to the end
of the free queue. -/
def rtwFreeRecvframe (f : FrameId) (st : Pool) : Pool :=
  { st with
    free := st.free.erase f ++ [f]
    defragQ := fun s => (st.defragQ s).erase f
    pkt := Function.update st.pkt f false
    again := if f ∈ st.free then f :: st.again else st.again }

/-- `rtw_free_recvframe`; it does nothing with NULL. -/
def rtwFree : Option FrameId → Pool → Pool
  | some f, st => rtwFreeRecvframe f st
  | none, st => st

def Pool.setHdr (f : FrameId) (r : RecvFrame) (st : Pool) : Pool :=
  { st with hdr := Function.update st.hdr f r }

def Pool.setPkt (f : FrameId) (st : Pool) : Pool := { st with pkt := Function.update st.pkt f true }

/-- `rtw_free_recvframe_queue`, and the part of `rtw_free_stainfo` that clears a `defrag_q`. -/
def rtwFreeRecvframes (fs : List FrameId) (st : Pool) : Pool :=
  fs.foldl (fun st f => rtwFreeRecvframe f st) st

/-- `rtw_free_stainfo` on some stations. -/
def rtwFreeStainfo (stas : List StaId) (st : Pool) : Pool :=
  stas.foldl (fun st s => rtwFreeRecvframes (st.defragQ s) st) st

def Pool.setQueue (q : Option StaId) (fs : List FrameId) (st : Pool) : Pool :=
  match q with
  | some s => { st with defragQ := Function.update st.defragQ s fs }
  | none => st

/-- The contents of a frame that has been put together. -/
def Pool.setWhole (f : Option FrameId) (r : Option RecvFrame) (st : Pool) : Pool :=
  match f, r with
  | some f, some r => st.setHdr f r
  | _, _ => st

/-- `recvframe_chk_defrag` on a frame of the pool.  `q` is the station whose `defrag_q` is
`pdefrag_q`, if there is one, and `keytrack` its key track. -/
def poolChkDefrag (q : Option StaId) (keytrack : Int) (f : FrameId) (st : Pool) :
    CoreRxState × Option FrameId × Pool :=
  let st := st.setHdr f (markKeytrack q.isSome keytrack (st.hdr f))
  let out := recvframeChkDefrag st.hdr (q.map st.defragQ) f
  (out.ret, out.frame, rtwFreeRecvframes out.freed ((st.setQueue q out.queue).setWhole out.frame out.whole))

/-! ### validate_recv_frame -/

inductive FrameType where
  | mgt
  | ctrl
  | data
  | other
  deriving DecidableEq, Repr

/-- What `validate_recv_frame` and `recvframe_chk_defrag` find on one interface. -/
structure IfaceRx where
  /-- The protocol version is 0. -/
  version0 : Bool
  type : FrameType
  /-- The station whose `defrag_q` is `pdefrag_q`: the sender, or for a frame that is not data and has
  no known sender the one for group traffic. -/
  sta : Option StaId
  keytrack : Int
  /-- `validate_mgmt_protect`: the frame it leaves, `none` for `_FAIL`. -/
  mgmtProtect : Option RecvFrame
  /-- The stations `mgt_dispatcher` removes. -/
  removed : List StaId
  /-- `validate_recv_data_frame`: the frame it leaves, `none` for anything but `_SUCCESS`. -/
  data : Option RecvFrame

/-- `validate_recv_mgnt_frame`.  `recvframe_chk_defrag` gets the address of its own pointer. -/
def validateRecvMgntFrame (v : IfaceRx) (f : FrameId) (st : Pool) : Pool :=
  match v.mgmtProtect with
  | none => st
  | some r =>
    match poolChkDefrag v.sta v.keytrack f (st.setHdr f r) with
    | (.cont, _, st) => rtwFreeStainfo v.removed st
    | (_, _, st) => st

/-- `validate_recv_frame`: whether it returns `_SUCCESS`, and the pool. -/
def validateRecvFrame (v : IfaceRx) (f : FrameId) (st : Pool) : Bool × Pool :=
  if ¬ v.version0 then (false, st)
  else
    match v.type with
    -- only data frame return _SUCCESS
    | .mgt => (false, validateRecvMgntFrame v f st)
    | .ctrl => (false, st)
    | .data =>
      match v.data with
      | some r => (true, st.setHdr f r)
      | none => (false, st)
    | .other => (false, st)

/-! ### rtw_core_rx_process -/

/-- How `core_rx_process_msdu` ends. -/
inductive MsduOutcome where
  | noAct
  | ethhdrFails
  | forwardOnly
  | checkFails
  | indicate
  deriving DecidableEq, Repr

/-- A packet from the PHL and what the functions behind `rtw_core_rx_process` find on it. -/
structure RxPkt where
  /-- `os_priv`, or `core_alloc_recvframe_pkt` has succeeded. -/
  hasPkt : Bool
  bmc : Bool
  /-- The other interfaces a group-addressed packet is cloned for, and whether the buffer could be
  duplicated. -/
  clones : List (Bool × IfaceRx)
  /-- `rtw_get_iface_by_macddr` finds the interface of a unicast packet. -/
  iface : Bool
  monitor : Bool
  /-- `icv_err || crc_err`. -/
  err : Bool
  adapterUp : Bool
  /-- The shortcut applies and takes the packet. -/
  shortcut : Bool
  rx : IfaceRx
  /-- `decryptor`: the frame it leaves, `none` for NULL. -/
  decrypted : Option RecvFrame
  chkmic : Bool
  portctrl : Bool
  msdu : MsduOutcome

/-- `_rtw_mi_buddy_clone_bcmc_packet` on a fresh frame, and the release of the frame. -/
def cloneBcmcPacket (c : Bool × IfaceRx) (f : FrameId) (st : Pool) : Pool :=
  rtwFreeRecvframe f (if c.1 then (validateRecvFrame c.2 f (st.setPkt f)).2 else st)

def rtwMiBuddyCloneBcmcPacket : List (Bool × IfaceRx) → Pool → Pool
  | [], st => st
  | c :: rest, st =>
    match rtwAllocRecvframe st with
    | some (f, st) => rtwMiBuddyCloneBcmcPacket rest (cloneBcmcPacket c f st)
    | none => rtwMiBuddyCloneBcmcPacket rest st

/-- `rtw_core_update_recvframe`: whether it returns `CORE_RX_CONTINUE`, and the pool. -/
def rtwCoreUpdateRecvframe (p : RxPkt) (f : FrameId) (st : Pool) : Bool × Pool :=
  if ¬ p.hasPkt then (false, st)
  else if p.bmc then (¬ p.monitor, rtwMiBuddyCloneBcmcPacket p.clones (st.setPkt f))
  else (p.iface ∧ ¬ p.monitor, st.setPkt f)

def rtwCoreRxDataPreProcess (p : RxPkt) (f : FrameId) (st : Pool) : CoreRxState × Option FrameId × Pool :=
  match p.decrypted with
  | none => (.drop, some f, st)
  | some r =>
    match poolChkDefrag p.rx.sta p.rx.keytrack f (st.setHdr f r) with
    | (.cont, some f, st) =>
      if (st.hdr f).attrib.privacy ∧ ¬ p.chkmic then (.drop, some f, st)
      else if ¬ p.portctrl then (.drop, some f, st)
      else (.cont, some f, st)
    | out => out

/-- `rtw_recv_indicatepkt`: whether it succeeds, and the pool. -/
def rtwRecvIndicatepkt (f : FrameId) (st : Pool) : Bool × Pool := (st.pkt f, rtwFreeRecvframe f st)

/-- `rtw_core_rx_data_post_process`: whether it returns `CORE_RX_DONE`, and the pool. -/
def rtwCoreRxDataPostProcess (p : RxPkt) (f : FrameId) (st : Pool) : Bool × Pool :=
  -- amsdu_to_msdu frees the frame and succeeds, however many subframes it has indicated
  if (st.hdr f).attrib.amsdu then (true, rtwFreeRecvframe f st)
  else
    match p.msdu with
    | .noAct | .ethhdrFails | .checkFails => (false, st)
    | .forwardOnly => (true, rtwFreeRecvframe f st)
    | .indicate => rtwRecvIndicatepkt f st

/-- The part of the loop of `rtw_core_rx_process` behind `rtw_core_update_recvframe`. -/
def rxUpdated (p : RxPkt) (f : FrameId) (st : Pool) : Pool :=
  if p.err ∨ ¬ p.adapterUp ∨ p.shortcut then rtwFreeRecvframe f st
  else
    match validateRecvFrame p.rx f st with
    | (false, st) => rtwFreeRecvframe f st
    | (true, st) =>
      match rtwCoreRxDataPreProcess p f st with
      | (.defrag, _, st) => st
      | (.cont, some f, st) =>
        match rtwCoreRxDataPostProcess p f st with
        | (true, st) => st
        | (false, st) => rtwFreeRecvframe f st
      | (_, f, st) => rtwFree f st

/-- One pass of the loop of `rtw_core_rx_process`, `none` where `rtw_phl_query_rx_pkt` returns NULL:
the pool, and whether the loop goes on. -/
def rxPass (p : Option RxPkt) (st : Pool) : Pool × Bool :=
  match rtwAllocRecvframe st with
  | none => (st, false)
  | some (f, st) =>
    match p with
    | none => (rtwFreeRecvframe f st, false)
    | some p =>
      match rtwCoreUpdateRecvframe p f st with
      | (false, st) => (rtwFreeRecvframe f st, true)
      | (true, st) => (rxUpdated p f st, true)

def rtwCoreRxProcess : List (Option RxPkt) → Pool → Pool
  | [], st => st
  | p :: rest, st =>
    match rxPass p st with
    | (st, true) => rtwCoreRxProcess rest st
    | (st, false) => st

end Rtl8852cu.Recv
