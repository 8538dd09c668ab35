import Rtl8852cu.Lib.Cut
import Rtl8852cu.Xmit.Fragments

/-!
# What one fragment takes

`fill_txreq_list_skb` walks over the parts of a packet with an offset and a rest that it counts down.  `Filled` says that the walk
over some parts adds the pieces of the range, and leaves the offset and the rest for the parts that follow.
-/

namespace Rtl8852cu.Xmit

open Lib

variable {α : Type*} {r : XmitReq α} {s s' s'' : FillSt α} {ps qs cs : List (List α)}

/-! ### Pieces are added -/

def XmitReq.addPieces (r : XmitReq α) (cs : List (List α)) : XmitReq α := cs.foldl (fun r c => r.push (.payload c) c.length) r

theorem addPieces_append (r : XmitReq α) (cs ds : List (List α)) : r.addPieces (cs ++ ds) = (r.addPieces cs).addPieces ds :=
  List.foldl_append

theorem addPieces_pktList (r : XmitReq α) (cs : List (List α)) : (r.addPieces cs).pktList = r.pktList ++ cs.map .payload := by
  induction cs generalizing r with
  | nil => exact (List.append_nil _).symm
  | cons c cs ih =>
    show ((r.push (.payload c) c.length).addPieces cs).pktList = _
    rw [ih, List.map_cons]
    show (r.pktList ++ [.payload c]) ++ cs.map .payload = _
    rw [List.append_assoc]; rfl

theorem addPieces_totalLen (r : XmitReq α) (hr : r.totalLen < u32Values) (cs : List (List α)) :
    (r.addPieces cs).totalLen = add32 r.totalLen cs.flatten.length := by
  induction cs generalizing r with
  | nil => exact (Nat.mod_eq_of_lt hr).symm
  | cons c cs ih =>
    have hlt : (r.push (.payload c) c.length).totalLen < u32Values := Nat.mod_lt _ (by decide)
    show ((r.push (.payload c) c.length).addPieces cs).totalLen = _
    rw [ih _ hlt]
    show (((r.totalLen + c.length) % u32Values) + cs.flatten.length) % u32Values = (r.totalLen + (c ++ cs.flatten).length) % u32Values
    rw [Nat.mod_add_mod, List.length_append, Nat.add_assoc]

theorem append_eq (r : XmitReq α) {p : List α} {off len n : ℕ} (hn : n = min (p.length - off) len) (hlen : len < u16Values) :
    r.append (p.drop off) n = r.addPieces (piece off len p) := by
  have htake : (p.drop off).take n = (p.drop off).take len := by
    rw [hn, ← List.length_drop, Nat.min_comm, ← List.take_eq_take_min]
  have hlength : ((p.drop off).take len).length = n := by
    rw [List.length_take, List.length_drop, hn, Nat.min_comm]
  have hmod : n % u16Values = n := Nat.mod_eq_of_lt (by omega)
  unfold XmitReq.append piece
  by_cases h0 : n = 0
  · have hempty : ((p.drop off).take len).isEmpty = true := List.isEmpty_iff_length_eq_zero.mpr (hlength.trans h0)
    rw [if_pos h0, if_pos hempty]; rfl
  · have hfull : ¬ ((p.drop off).take len).isEmpty = true := fun h => h0 (hlength.symm.trans (List.isEmpty_iff_length_eq_zero.mp h))
    rw [if_neg h0, if_neg hfull, hmod, htake]
    show _ = r.push (.payload _) ((p.drop off).take len).length
    rw [hlength]

/-! ### The walk -/

/-- The parts have been walked over: the pieces of the range were added, and its rest lies in what follows. -/
structure Filled (ps : List (List α)) (s s' : FillSt α) : Prop where
  req : s'.req = s.req.addPieces (cuts s.offset s.remSz ps)
  remSz : s'.remSz = s.remSz - (ps.flatten.length - s.offset)
  offset : s'.remSz = 0 ∨ s'.offset = s.offset - ps.flatten.length

theorem Filled.nil (s : FillSt α) : Filled [] s s where
  req := rfl
  remSz := by
    show s.remSz = s.remSz - (0 - s.offset)
    rw [Nat.zero_sub, Nat.sub_zero]
  offset := Or.inr rfl

theorem Filled.trans (h : Filled ps s s') (h' : Filled qs s' s'') : Filled (ps ++ qs) s s'' where
  req := by
    rw [h'.req, h.req, cuts_append, addPieces_append, ← h.remSz]
    rcases h.offset with hrem | hoff
    · rw [hrem, cuts_zero, cuts_zero]
    · rw [hoff]
  remSz := by
    rw [h'.remSz, List.flatten_append, List.length_append]
    have hrem := h.remSz
    rcases h.offset with hzero | hoff
    · omega
    · omega
  offset := by
    rw [List.flatten_append, List.length_append]
    have hrem := h'.remSz
    rcases h.offset with hzero | hoff
    · exact Or.inl (by omega)
    · exact h'.offset.imp_right fun hoff' => by omega

theorem cuts_singleton (off len : ℕ) (p : List α) : cuts off len [p] = piece off len p := List.append_nil _

theorem piece_behind {off len : ℕ} {p : List α} (h : p.length ≤ off) : piece off len p = [] := by
  unfold piece
  rw [List.drop_eq_nil_of_le h, List.take_nil]; rfl

theorem fillHead_filled (head : List α) (hlen : s.remSz < u16Values) : Filled [head] s (fillHead head s) := by
  have hflat : [head].flatten.length = head.length := congrArg List.length (List.append_nil head)
  unfold fillHead
  split_ifs with hlt
  · refine ⟨?_, ?_, Or.inr ?_⟩
    · rw [cuts_singleton]; exact append_eq s.req rfl hlen
    · rw [hflat]
      show s.remSz - min (head.length - s.offset) s.remSz = _
      omega
    · rw [hflat]
      show 0 = s.offset - head.length
      omega
  · refine ⟨?_, ?_, Or.inr (by rw [hflat])⟩
    · rw [cuts_singleton, piece_behind (by omega)]; rfl
    · rw [hflat]
      show s.remSz = _
      omega

theorem fillPages_filled (pages : List (List α)) (hlen : s.remSz < u16Values) : Filled pages s (fillPages pages s) := by
  induction pages generalizing s with
  | nil => exact Filled.nil s
  | cons page pages ih =>
    have hflat : [page].flatten.length = page.length := congrArg List.length (List.append_nil page)
    unfold fillPages
    split_ifs with hlt
    · simp only []
      split_ifs with hrem
      · -- the range ends in this page
        refine ⟨?_, ?_, Or.inl rfl⟩
        · show s.req.append (page.drop s.offset) s.remSz = s.req.addPieces (piece s.offset s.remSz page ++ cuts _ _ pages)
          rw [Nat.sub_eq_zero_of_le (Nat.le_of_lt hrem), cuts_zero, List.append_nil]
          exact append_eq s.req (by omega) hlen
        · rw [List.flatten_cons, List.length_append]
          show 0 = _
          omega
      · have hfirst : Filled [page] s ⟨s.req.append (page.drop s.offset) (page.length - s.offset), s.remSz - (page.length - s.offset), 0⟩ := by
          refine ⟨?_, by rw [hflat], Or.inr ?_⟩
          · rw [cuts_singleton]; exact append_eq s.req (by omega) hlen
          · rw [hflat]
            show 0 = s.offset - page.length
            omega
        exact hfirst.trans (ih (show s.remSz - _ < u16Values by omega))
    · have hfirst : Filled [page] s { s with offset := s.offset - page.length } := by
        refine ⟨?_, ?_, Or.inr (by rw [hflat])⟩
        · rw [cuts_singleton, piece_behind (by omega)]; rfl
        · rw [hflat]
          show s.remSz = _
          omega
      exact hfirst.trans (ih hlen)

theorem fillTxreqListSkbOne_filled (skb : List α × List (List α)) (hlen : s.remSz < u16Values) :
    Filled (skb.1 :: skb.2) s (fillTxreqListSkbOne skb s) := by
  have hhead := fillHead_filled skb.1 hlen
  exact hhead.trans (fillPages_filled skb.2 (by rw [hhead.remSz]; omega))

theorem fillTxreqListSkb_eq (r : XmitReq α) (skb : Skb α) {reqSz : ℕ} (hlen : reqSz < u16Values) (offset : ℕ) :
    fillTxreqListSkb r skb reqSz offset = r.addPieces (cuts offset reqSz skb.parts) := by
  have hlist : ∀ (fs : List (List α × List (List α))) (s : FillSt α), s.remSz < u16Values →
      Filled (fs.flatMap fun f => f.1 :: f.2) s (fs.foldl (fun s f => fillTxreqListSkbOne f s) s) := by
    intro fs
    induction fs with
    | nil => exact fun s _ => Filled.nil s
    | cons f fs ih =>
      intro s hs
      have hone := fillTxreqListSkbOne_filled f hs
      exact hone.trans (ih _ (by rw [hone.remSz]; omega))
  have hone := fillTxreqListSkbOne_filled (s := ⟨r, reqSz, offset⟩) (skb.head, skb.frags) hlen
  have hrem : (fillTxreqListSkbOne (skb.head, skb.frags) ⟨r, reqSz, offset⟩).remSz < u16Values := by
    rw [hone.remSz]; exact lt_of_le_of_lt (Nat.sub_le _ _) hlen
  exact (hone.trans (hlist skb.fragList _ hrem)).req

/-! ### The packet that is made linear -/

namespace Skb

theorem length_parts (skb : Skb α) : skb.parts.length = skb.totalFragNr := by
  have hlist : ∀ fs : List (List α × List (List α)), (fs.flatMap fun f => f.1 :: f.2).length = (fs.map fun f => 1 + f.2.length).sum := by
    intro fs
    induction fs with
    | nil => rfl
    | cons f fs ih =>
      rw [List.flatMap_cons, List.length_append, ih, List.map_cons, List.sum_cons, List.length_cons, Nat.add_comm f.2.length]
  unfold parts totalFragNr
  rw [List.length_append, hlist, List.length_cons, Nat.add_comm skb.frags.length]

theorem settle_bytes (linear : Bool) (skb : Skb α) : (skb.settle linear).bytes = skb.bytes := by
  unfold settle
  split_ifs
  · show (skb.bytes :: ([] ++ [])).flatten = skb.bytes; exact List.append_nil _
  · rfl

theorem settle_settle (linear : Bool) (skb : Skb α) : (skb.settle linear).settle linear = skb.settle linear := by
  unfold settle
  by_cases h : skb.totalFragNr > numPktListPerTxreq - 2 ∧ linear
  · rw [if_pos h]; exact if_neg fun h' => absurd h'.1 (by show ¬ 1 + 0 + 0 > 8 - 2; decide)
  · rw [if_neg h, if_neg h]

theorem length_parts_settle {linear : Bool} (skb : Skb α) (h : linear = true ∨ skb.totalFragNr ≤ numPktListPerTxreq - 2) :
    (skb.settle linear).parts.length ≤ numPktListPerTxreq - 2 := by
  unfold settle
  split_ifs with hset
  · show 1 ≤ 8 - 2; decide
  · rw [length_parts]
    rcases h with h | h
    · exact Nat.le_of_not_lt fun hgt => hset ⟨hgt, h⟩
    · exact h

end Skb

end Rtl8852cu.Xmit
