import Rtl8852cu.Recv.Types

/-!
# Reassembly of fragments

`recvframe_chk_defrag` queues the fragments of a sender in its `defrag_q`, and `recvframe_defrag`
joins the queue when the last fragment is in.  The elements of a queue have any type `α`, and
`hdr` reads the frame behind one: the frames themselves where one sender is followed, the entries of
the pool where the pool is.

What `recvframe_chk_defrag` leaves behind is a `DefragOut`: its return value, the frame in
`*pprecv_frame` and what has become of it, the queue, and the calls of `rtw_free_recvframe`.
-/

namespace Rtl8852cu.Recv

inductive CoreRxState where
  | cont
  | done
  | drop
  | fail
  | goShortcut
  | defrag
  deriving DecidableEq, Repr

/-! ### Operations on a frame's buffer -/

/-- `recvframe_pull`; a frame that is too short stays as it is. -/
def recvframePull (f : RecvFrame) (sz : ℕ) : RecvFrame :=
  if sz ≤ f.len then { f with rxData := f.rxData.drop sz } else f

def recvframePullTail (f : RecvFrame) (sz : ℕ) : RecvFrame :=
  if sz ≤ f.len then { f with rxData := f.rxData.take (f.len - sz), room := f.room + sz } else f

/-- The copy to `rx_tail` and `recvframe_put`. -/
def recvframePut (f : RecvFrame) (d : List UInt8) : RecvFrame :=
  if d.length ≤ f.room then { f with rxData := f.rxData ++ d, room := f.room - d.length } else f

/-! ### recvframe_defrag -/

/-- The ciphers whose packet numbers `recvframe_defrag` compares. -/
def SecurityType.ccmpHeader (e : SecurityType) : Bool :=
  e = .aes ∨ e = .ccmp256 ∨ e = .gcmp ∨ e = .gcmp256

def ccmph2Pn (ch : BitVec 64) : BitVec 64 :=
  (ch &&& 0x000000000000ffff#64) ||| ((ch &&& 0xffffffff00000000#64) >>> 16)

/-- The packet number `recvframe_defrag` reads. -/
def RecvFrame.ccmpPn (f : RecvFrame) : BitVec 64 := ccmph2Pn (getLe64 f.iv)

/-- The bytes of a following fragment that are appended: without header and IV. -/
def RecvFrame.payload (f : RecvFrame) : List UInt8 :=
  (recvframePull f (f.attrib.hdrlen + f.attrib.ivLen)).rxData

/-- The payload of `nf` behind `pr`, in place of the ICV of `pr`. -/
def joinFragment (pr nf : RecvFrame) : RecvFrame :=
  let pr := recvframePut (recvframePullTail pr pr.attrib.icvLen) nf.payload
  { pr with attrib := { pr.attrib with icvLen := nf.attrib.icvLen } }

/-- The loop of `recvframe_defrag` over the fragments after the first. -/
def defragLoop (pr : RecvFrame) (curfragnum : ℕ) (curPn : BitVec 64) : List RecvFrame → Option RecvFrame
  | [] => some pr
  | nf :: rest =>
    -- the packet number must be consecutive
    if nf.attrib.encrypt.ccmpHeader ∧ nf.ccmpPn ≠ curPn + 1#64 then none
    else if pr.keytrack ≠ nf.keytrack then none
    -- the fragment number must be increasing
    else if curfragnum ≠ nf.attrib.fragNum then none
    else if pr.room < nf.payload.length then none
    else defragLoop (joinFragment pr nf) (curfragnum + 1)
      (if nf.attrib.encrypt.ccmpHeader then nf.ccmpPn else curPn) rest

/-- `recvframe_defrag`: the frame that the queued fragments make, `none` when the queue is dropped. -/
def recvframeDefrag : List RecvFrame → Option RecvFrame
  | [] => none
  | pr :: rest =>
    -- the first fragment number must be 0
    if pr.attrib.fragNum ≠ 0 then none
    else defragLoop pr 1 (if pr.attrib.encrypt.ccmpHeader then pr.ccmpPn else 0#64) rest

/-! ### recvframe_chk_defrag -/

/-- What a call of `recvframe_chk_defrag` leaves behind. -/
structure DefragOut (α : Type*) where
  /-- The return value. -/
  ret : CoreRxState
  /-- `*pprecv_frame`. -/
  frame : Option α
  /-- The contents of a frame that has been put together. -/
  whole : Option RecvFrame
  /-- `defrag_q`. -/
  queue : List α
  /-- The frame was linked to `defrag_q`. -/
  queued : Bool
  /-- The frames passed to `rtw_free_recvframe`, in order. -/
  freed : List α

section Check

variable {α : Type*}

/-- A fragment gets the key track of its sender. -/
def markKeytrack (hasQueue : Bool) (keytrack : Int) (f : RecvFrame) : RecvFrame :=
  if (f.attrib.mfrag ∨ f.attrib.fragNum ≠ 0) ∧ hasQueue then { f with keytrack := keytrack } else f

/-- `recvframe_chk_defrag` from its `ismfrag == 1` on.  `q` is `pdefrag_q`, and `ret` what the
function would return so far. -/
def chkDefragQueue (hdr : α → RecvFrame) (q : Option (List α)) (f : α) (ret : CoreRxState) : DefragOut α :=
  let a := (hdr f).attrib
  let held := q.getD []
  if a.mfrag then
    match q with
    | some q =>
      -- the first fragment: free current defrag_q
      if a.fragNum = 0 then ⟨.defrag, some f, none, [f], true, q⟩
      else ⟨.defrag, some f, none, q ++ [f], true, []⟩
    | none => ⟨.drop, some f, none, held, false, []⟩
  else if a.fragNum ≠ 0 then
    match q with
    | some q =>
      match recvframeDefrag ((q ++ [f]).map hdr) with
      | none => ⟨.drop, none, none, [], true, q ++ [f]⟩
      | some r => ⟨.cont, (q ++ [f]).head?, some r, [], true, (q ++ [f]).tail⟩
    | none => ⟨.drop, some f, none, held, false, []⟩
  else ⟨ret, some f, none, held, false, []⟩

def recvframeChkDefrag (hdr : α → RecvFrame) (q : Option (List α)) (f : α) : DefragOut α :=
  let a := (hdr f).attrib
  if ¬ a.mfrag ∧ a.fragNum = 0 then chkDefragQueue hdr q f .cont
  -- group addressed frame cannot use fragmentation
  else if isMcast a.ra then chkDefragQueue hdr q f .drop
  else chkDefragQueue hdr q f .cont

end Check

end Rtl8852cu.Recv
