import Rtl8852cu.Lib.Mirror
import Rtl8852cu.Ofld.PktOfld

/-!
# The packets that the firmware holds

* `info`: the `pkt_info` of a station and a type, and what the calls do to it;
* `Ledger`: the requests are counted, a packet has an id while it is requested, and the ids are those
  that the firmware holds;
* `request_cases`, `Ledger.step`: a call keeps it unless it `Leaks`: `_phl_pkt_ofld_add_pkt` forgets the
  id of a packet that it has added when the update of the ids fails, and
  `_phl_pkt_ofld_cancel_entry_pkt` that of one whose deletion fails;
* `ledgerOk_iff`: the runs in which nothing is forgotten.
-/

namespace Rtl8852cu.Ofld

open Lib
open Function (update update_of_ne)

/-! ### The entries -/

@[simp] theorem modify_macid (entry : PktOfldEntry) (type : PktType)
    (f : PktOfldInfo → PktOfldInfo) : (entry.modify type f).macid = entry.macid := rfl

theorem delEntryReq_macid (entry : PktOfldEntry) : entry.delEntryReq.macid = entry.macid := rfl

theorem modify_modify (entry : PktOfldEntry) (type : PktType) (f g : PktOfldInfo → PktOfldInfo) :
    (entry.modify type f).modify type g = entry.modify type fun info => g (f info) := by
  simp [PktOfldEntry.modify]

theorem modify_eq_self {entry : PktOfldEntry} {type : PktType} {f : PktOfldInfo → PktOfldInfo}
    (h : f (entry.pktInfo type) = entry.pktInfo type) : entry.modify type f = entry := by
  rw [PktOfldEntry.modify, h, Function.update_eq_self]

theorem modify_pktInfo (entry : PktOfldEntry) (type idx : PktType)
    (f : PktOfldInfo → PktOfldInfo) : (entry.modify type f).pktInfo idx =
      if idx = type then f (entry.pktInfo type) else entry.pktInfo idx := by
  show update entry.pktInfo type (f (entry.pktInfo type)) idx = _
  by_cases h : idx = type
  · subst h; rw [if_pos rfl, Function.update_self]
  · rw [if_neg h, update_of_ne h]

theorem delReq_addReq (info : PktOfldInfo) (token : ℕ) : (info.addReq token).delReq token = info := by
  simp [PktOfldInfo.delReq, PktOfldInfo.addReq]

theorem foldl_delReq (tokens : List ℕ) (info : PktOfldInfo) (hq : info.reqQ = tokens) :
    tokens.foldl PktOfldInfo.delReq info = ⟨[], info.reqCnt - tokens.length, info.id⟩ := by
  induction tokens generalizing info with
  | nil =>
    rw [List.foldl_nil, List.length_nil, Nat.sub_zero, ← hq]
  | cons token tokens ih =>
    rw [List.foldl_cons, ih (info.delReq token) (by simp [PktOfldInfo.delReq, hq])]
    simp [PktOfldInfo.delReq, Nat.sub_sub, Nat.add_comm]

theorem delAllReq_eq (info : PktOfldInfo) :
    info.delAllReq = ⟨[], info.reqCnt - info.reqQ.length, info.id⟩ := foldl_delReq _ info rfl

namespace PktOfldObj

variable {obj obj' : PktOfldObj} {macid m : ℕ} {type t : PktType}

section Entries

variable {f g : PktOfldEntry → PktOfldEntry}

variable {q : List PktOfldEntry}

theorem find?_modify (hf : ∀ e, (f e).macid = e.macid) :
    (q.modify (q.findIdx fun pos => pos.macid = macid) f).find? (fun pos => pos.macid = m) =
      if m = macid then (q.find? fun pos => pos.macid = macid).map f
      else q.find? fun pos => pos.macid = m := by
  induction q with
  | nil => simp
  | cons e q ih =>
    by_cases he : e.macid = macid
    · rw [List.findIdx_cons, decide_eq_true he, cond_true, List.modify_zero_cons]
      by_cases hm : m = macid
      · subst hm
        rw [if_pos rfl, List.find?_cons_of_pos (by simp [hf, he]), List.find?_cons_of_pos (by simp [he])]
        rfl
      · rw [if_neg hm, List.find?_cons_of_neg (by simp [hf, he, Ne.symm hm]),
          List.find?_cons_of_neg (by simp [he, Ne.symm hm])]
    · rw [List.findIdx_cons, decide_eq_false he, cond_false, List.modify_succ_cons]
      by_cases hem : e.macid = m
      · rw [if_neg (hem ▸ he), List.find?_cons_of_pos (by simpa using hem),
          List.find?_cons_of_pos (by simpa using hem)]
      · rw [List.find?_cons_of_neg (by simpa using hem), ih,
          List.find?_cons_of_neg (by simpa using he), List.find?_cons_of_neg (by simpa using hem)]

theorem getEntry_modifyEntry (hf : ∀ e, (f e).macid = e.macid) : (obj.modifyEntry macid f).getEntry m =
      if m = macid then (obj.getEntry macid).map f else obj.getEntry m := find?_modify hf

theorem map_modify (hf : ∀ e, (f e).macid = e.macid) (n : ℕ) :
    (q.modify n f).map PktOfldEntry.macid = q.map PktOfldEntry.macid := by
  induction q generalizing n with
  | nil => simp
  | cons e q ih =>
    cases n with
    | zero => rw [List.modify_zero_cons, List.map_cons, List.map_cons, hf]
    | succ n => rw [List.modify_succ_cons, List.map_cons, List.map_cons, ih]

theorem modify_findIdx_eq_self (h : ∀ e, (q.find? fun pos => pos.macid = macid) = some e → f e = e) :
    q.modify (q.findIdx fun pos => pos.macid = macid) f = q := by
  induction q with
  | nil => simp
  | cons e q ih =>
    by_cases he : e.macid = macid
    · rw [List.findIdx_cons, decide_eq_true he, cond_true, List.modify_zero_cons,
        h e (List.find?_cons_of_pos (by simpa using he))]
    · rw [List.findIdx_cons, decide_eq_false he, cond_false, List.modify_succ_cons,
        ih fun e' he' => h e' ((List.find?_cons_of_neg (by simpa using he)).trans he')]

theorem modifyEntry_eq_self (h : ∀ e, obj.getEntry macid = some e → f e = e) : obj.modifyEntry macid f = obj := by
  rw [modifyEntry, modify_findIdx_eq_self h]

theorem modify_modify_findIdx (hf : ∀ e, (f e).macid = e.macid) :
    (q.modify (q.findIdx fun pos => pos.macid = macid) f).modify
      ((q.modify (q.findIdx fun pos => pos.macid = macid) f).findIdx fun pos => pos.macid = macid) g =
      q.modify (q.findIdx fun pos => pos.macid = macid) fun e => g (f e) := by
  induction q with
  | nil => simp
  | cons e q ih =>
    by_cases he : e.macid = macid
    · rw [List.findIdx_cons, decide_eq_true he, cond_true, List.modify_zero_cons, List.findIdx_cons,
        decide_eq_true ((hf e).trans he), cond_true, List.modify_zero_cons, List.modify_zero_cons]
    · rw [List.findIdx_cons, decide_eq_false he, cond_false, List.modify_succ_cons,
        List.findIdx_cons, decide_eq_false he, cond_false, List.modify_succ_cons, ih,
        List.modify_succ_cons]

theorem modifyEntry_modifyEntry (hf : ∀ e, (f e).macid = e.macid) :
    (obj.modifyEntry macid f).modifyEntry macid g = obj.modifyEntry macid fun e => g (f e) := by
  unfold modifyEntry
  rw [modify_modify_findIdx hf]

theorem getEntry_eq_some (hnodup : (obj.entryQ.map PktOfldEntry.macid).Nodup) {e : PktOfldEntry} :
    obj.getEntry m = some e ↔ e ∈ obj.entryQ ∧ e.macid = m := by
  unfold getEntry
  generalize obj.entryQ = q at hnodup
  induction q with
  | nil => simp
  | cons e' q ih =>
    rw [List.map_cons, List.nodup_cons] at hnodup
    by_cases he : e'.macid = m
    · rw [List.find?_cons_of_pos (by simpa using he), List.mem_cons]
      constructor
      · rintro heq
        obtain rfl := Option.some.inj heq
        exact ⟨.inl rfl, he⟩
      · rintro ⟨rfl | hmem, hm⟩
        · rfl
        · exact absurd (List.mem_map.mpr ⟨e, hmem, hm.trans he.symm⟩) hnodup.1
    · rw [List.find?_cons_of_neg (by simpa using he), ih hnodup.2, List.mem_cons]
      constructor
      · exact fun h => ⟨.inr h.1, h.2⟩
      · rintro ⟨rfl | hmem, hm⟩
        · exact absurd hm he
        · exact ⟨hmem, hm⟩

theorem getEntry_delEntryNode (hnodup : (obj.entryQ.map PktOfldEntry.macid).Nodup) :
    (obj.delEntryNode macid).getEntry m = if m = macid then none else obj.getEntry m := by
  unfold getEntry delEntryNode
  generalize obj.entryQ = q at hnodup
  induction q with
  | nil => simp
  | cons e q ih =>
    rw [List.map_cons, List.nodup_cons] at hnodup
    by_cases he : e.macid = macid
    · rw [List.eraseP_cons_of_pos (by simpa using he)]
      by_cases hm : m = macid
      · rw [if_pos hm, List.find?_eq_none]
        intro e' he' heq
        have heq' : e'.macid = m := by simpa using heq
        exact hnodup.1 (List.mem_map.mpr ⟨e', he', by rw [heq', hm, he]⟩)
      · rw [if_neg hm, List.find?_cons_of_neg (by simpa [he] using Ne.symm hm)]
    · rw [List.eraseP_cons_of_neg (by simpa using he)]
      by_cases hem : e.macid = m
      · rw [List.find?_cons_of_pos (by simpa using hem), List.find?_cons_of_pos (by simpa using hem),
          if_neg (hem ▸ he)]
      · rw [List.find?_cons_of_neg (by simpa using hem), ih hnodup.2, List.find?_cons_of_neg (by simpa using hem)]

end Entries

/-! ### The slots -/

/-- The `pkt_info` of a station and a type. -/
def info (obj : PktOfldObj) (m : ℕ) (t : PktType) : Option PktOfldInfo :=
  (obj.getEntry m).map fun e => e.pktInfo t

def Recorded (obj : PktOfldObj) (slot : ℕ × PktType) (id : ℕ) : Prop :=
  ∃ i, obj.info slot.1 slot.2 = some i ∧ i.id = id ∧ id ≠ notUsed

theorem info_modifyInfo (f : PktOfldInfo → PktOfldInfo) : (obj.modifyInfo macid type f).info m t =
      if m = macid ∧ t = type then (obj.info macid type).map f else obj.info m t := by
  unfold info modifyInfo
  rw [getEntry_modifyEntry fun e => modify_macid e type f]
  by_cases hm : m = macid
  · subst hm
    rw [if_pos rfl, Option.map_map, Option.map_map]
    by_cases ht : t = type
    · subst ht
      rw [if_pos ⟨rfl, rfl⟩]
      congr 1
      funext e
      exact (modify_pktInfo ..).trans (if_pos rfl)
    · rw [if_neg fun h => ht h.2]
      congr 1
      funext e
      exact (modify_pktInfo ..).trans (if_neg ht)
  · rw [if_neg hm, if_neg fun h => hm h.1]

theorem modifyInfo_modifyInfo (f g : PktOfldInfo → PktOfldInfo) :
    (obj.modifyInfo macid type f).modifyInfo macid type g = obj.modifyInfo macid type fun i => g (f i) := by
  unfold modifyInfo
  rw [modifyEntry_modifyEntry fun e => modify_macid e type f]
  simp only [modify_modify]

theorem modifyInfo_eq_self {f : PktOfldInfo → PktOfldInfo}
    (h : ∀ i, obj.info macid type = some i → f i = i) : obj.modifyInfo macid type f = obj :=
  modifyEntry_eq_self fun _ he => modify_eq_self (h _ (congrArg (Option.map _) he))

theorem map_macid_modifyInfo (f : PktOfldInfo → PktOfldInfo) :
    (obj.modifyInfo macid type f).entryQ.map PktOfldEntry.macid =
      obj.entryQ.map PktOfldEntry.macid := map_modify (fun e => modify_macid e type f) _

theorem info_delEntryReq : (obj.modifyEntry macid PktOfldEntry.delEntryReq).info m t =
      if m = macid then (obj.info macid t).map fun i => PktOfldInfo.delAllReq { i with id := notUsed }
      else obj.info m t := by
  unfold info
  rw [getEntry_modifyEntry delEntryReq_macid]
  by_cases hm : m = macid
  · rw [if_pos hm, if_pos hm, Option.map_map, Option.map_map]; rfl
  · rw [if_neg hm, if_neg hm]

theorem cancelEntryPkt_eq (obj : PktOfldObj) (entry : PktOfldEntry) (del : PktType → Bool) :
    (obj.cancelEntryPkt entry del).entryQ = obj.entryQ ∧
      ∀ id, (obj.cancelEntryPkt entry del).fw id = true ↔ obj.fw id = true ∧
        ¬ ∃ idx, (entry.pktInfo idx).isPktOfld = true ∧ del idx = true ∧ (entry.pktInfo idx).id = id := by
  have hloop : ∀ (idxs : List PktType) (obj : PktOfldObj),
      let obj' := idxs.foldl (fun obj idx => if (entry.pktInfo idx).isPktOfld then
        obj.halDel (entry.pktInfo idx).id (del idx) else obj) obj
      obj'.entryQ = obj.entryQ ∧ ∀ id, obj'.fw id = true ↔ obj.fw id = true ∧
        ¬ ∃ idx ∈ idxs, (entry.pktInfo idx).isPktOfld = true ∧ del idx = true ∧ (entry.pktInfo idx).id = id := by
    intro idxs
    induction idxs with
    | nil => simp
    | cons idx idxs ih =>
      intro obj
      obtain ⟨hq, hfw⟩ := ih (if (entry.pktInfo idx).isPktOfld then
        obj.halDel (entry.pktInfo idx).id (del idx) else obj)
      simp only [List.foldl_cons] at hq hfw ⊢
      rw [hq]
      refine ⟨?_, fun id => ?_⟩
      · unfold halDel
        split <;> [split; skip] <;> rfl
      · rw [hfw]
        simp only [List.mem_cons, or_and_right, exists_or, not_or, ← and_assoc]
        refine and_congr_left fun _ => ?_
        unfold halDel
        by_cases hu : (entry.pktInfo idx).isPktOfld = true
        · rw [if_pos hu]
          by_cases hd : del idx = true
          · rw [if_pos hd]
            show update obj.fw (entry.pktInfo idx).id false id = true ↔ _
            by_cases hid : id = (entry.pktInfo idx).id
            · subst hid; simp [hu, hd]
            · rw [update_of_ne hid]; simp [Ne.symm hid]
          · rw [if_neg hd]; simp [hd]
        · rw [if_neg hu]; simp [hu]
  have hall : ∀ idx, idx ∈ PktType.all := by
    intro idx
    cases idx <;> decide
  obtain ⟨hq, hfw⟩ := hloop PktType.all obj
  refine ⟨hq, fun id => (hfw id).trans ?_⟩
  simp only [hall, true_and]

/-! ### A request -/

variable {entry : PktOfldEntry}

theorem macid_of_getEntry (he : obj.getEntry macid = some entry) :
    entry.macid = macid := by simpa using List.find?_some he

theorem request_cases (he : obj.getEntry macid = some entry) (construct : Bool) (add : Option ℕ) (updateIds : Bool) :
    let obj₁ := { obj with curSeq := (obj.curSeq + 1) % 2 ^ 32 }
    obj.request macid type true true construct add updateIds = if (entry.pktInfo type).id ≠ notUsed then
        (.success, obj₁.modifyInfo macid type fun i => i.addReq obj.curSeq)
      else if !construct then (.failure, obj₁)
      else match add with
        | none => (.failure, obj₁)
        | some id =>
          if !updateIds then (.failure, { obj₁ with fw := update obj.fw id true })
          else (.success, { obj₁.modifyInfo macid type fun i =>
            { i.addReq obj.curSeq with id := id } with fw := update obj.fw id true }) := by
  intro obj₁
  have hm := macid_of_getEntry he
  have hinfo : obj₁.info macid type = some (entry.pktInfo type) := congrArg (Option.map _) he
  have hself : (entry.modify type fun i => i.addReq obj.curSeq).pktInfo type =
      (entry.pktInfo type).addReq obj.curSeq := (modify_pktInfo ..).trans (if_pos rfl)
  rw [request, he]
  simp only [Bool.not_true, Bool.false_eq_true, if_false]
  by_cases hid : (entry.pktInfo type).id = notUsed
  · have hnot : ((entry.modify type fun i => i.addReq obj.curSeq).pktInfo type).isPktOfld = false := by
      rw [hself]; exact decide_eq_false (not_not.mpr hid)
    rw [if_neg (not_not.mpr hid)]
    unfold addPkt
    rw [if_neg (by rw [hnot]; decide)]
    -- the id is the one from before
    have hundo : ∀ f : PktOfldInfo → PktOfldInfo, (∀ i : PktOfldInfo, i.id = notUsed → f i = i) →
        obj₁.modifyInfo macid type (fun i => f i) = obj₁ := by
      intro f hf
      refine modifyInfo_eq_self fun i hi => hf i ?_
      obtain rfl := Option.some.inj (hinfo.symm.trans hi)
      exact hid
    cases construct with
    | false =>
      refine congrArg (Prod.mk _) ?_
      rw [modifyInfo_modifyInfo]; exact hundo _ fun i _ => delReq_addReq i obj.curSeq
    | true =>
      cases add with
      | none =>
        refine congrArg (Prod.mk _) ?_
        rw [modify_macid, hm]
        unfold setId
        rw [modifyInfo_modifyInfo, modifyInfo_modifyInfo]
        exact hundo _ fun i hi => by simp [PktOfldInfo.addReq, PktOfldInfo.delReq, ← hi]
      | some id =>
        simp only [Bool.not_true, Bool.false_eq_true, if_false, modify_macid, hm, setId]
        cases updateIds with
        | false =>
          refine congrArg (Prod.mk _) ?_
          have hsame : (((obj₁.modifyInfo macid type fun i => i.addReq obj.curSeq).modifyInfo macid type
              fun i => { i with id := id }).modifyInfo macid type
              fun i => { i with id := notUsed }).modifyInfo macid type
              (fun i => i.delReq obj.curSeq) = obj₁ := by
            rw [modifyInfo_modifyInfo, modifyInfo_modifyInfo, modifyInfo_modifyInfo]
            exact hundo _ fun i hi => by simp [PktOfldInfo.addReq, PktOfldInfo.delReq, ← hi]
          exact congrArg (fun o : PktOfldObj => { o with fw := update obj.fw id true }) hsame
        | true =>
          refine congrArg (Prod.mk _) ?_
          have hsame : (obj₁.modifyInfo macid type fun i => i.addReq obj.curSeq).modifyInfo macid type
              (fun i => { i with id := id }) = obj₁.modifyInfo macid type
              fun i => { i.addReq obj.curSeq with id := id } := modifyInfo_modifyInfo ..
          exact congrArg (fun o : PktOfldObj => { o with fw := update obj.fw id true }) hsame
  · have hyes : ((entry.modify type fun i => i.addReq obj.curSeq).pktInfo type).isPktOfld = true := by
      rw [hself]; exact decide_eq_true hid
    rw [if_pos hid]
    unfold addPkt
    rw [if_pos hyes]

/-! ### The ledger -/

/-- The requests and the ids of a `pkt_info`. -/
def Counted (i : PktOfldInfo) : Prop :=
  i.reqCnt = i.reqQ.length ∧ (i.id ≠ notUsed ↔ 0 < i.reqCnt)

/-- The requests are counted, and the firmware holds the ids that are recorded. -/
structure Ledger (obj : PktOfldObj) : Prop where
  keys : (obj.entryQ.map PktOfldEntry.macid).Nodup
  counted : ∀ m t i, obj.info m t = some i → Counted i
  mirror : Mirrored (fun id => obj.fw id = true) obj.Recorded

theorem ledger_init : pktOfldInit.Ledger where
  keys := List.nodup_nil
  counted _ _ _ h := nomatch h
  mirror := ⟨fun _ => ⟨fun h => (nomatch h), fun ⟨_, _, h, _⟩ => (nomatch h)⟩, fun _ _ _ ⟨_, h, _⟩ => nomatch h⟩

theorem Ledger.congr (h : obj.Ledger) (hq : obj'.entryQ = obj.entryQ) (hfw : obj'.fw = obj.fw) : obj'.Ledger := by
  have hinfo : obj'.info = obj.info := by
    unfold info getEntry
    rw [hq]
  refine ⟨hq ▸ h.keys, hinfo ▸ h.counted, h.mirror.congr (fun _ => by rw [hfw]) fun slot id => ?_⟩
  unfold Recorded
  rw [hinfo]

theorem Ledger.modifyInfo (h : obj.Ledger) (f : PktOfldInfo → PktOfldInfo) (fw : ℕ → Bool)
    (hf : ∀ i, obj.info macid type = some i → Counted (f i))
    (hmirror : ∀ R : ℕ × PktType → ℕ → Prop, (∀ slot id, R slot id ↔ if slot = (macid, type) then
        ∃ i, obj.info macid type = some i ∧ (f i).id = id ∧ id ≠ notUsed else obj.Recorded slot id) →
      Mirrored (fun id => fw id = true) R) :
    PktOfldObj.Ledger { obj.modifyInfo macid type f with fw := fw } := by
  have hinfo : ∀ m t, info { obj.modifyInfo macid type f with fw := fw } m t =
      if m = macid ∧ t = type then (obj.info macid type).map f else obj.info m t :=
    fun m t => info_modifyInfo f
  refine ⟨?_, fun m t i hi => ?_, hmirror _ fun slot id => ?_⟩
  · show ((obj.modifyInfo macid type f).entryQ.map PktOfldEntry.macid).Nodup
    rw [map_macid_modifyInfo]; exact h.keys
  · rw [hinfo] at hi
    split at hi
    · obtain ⟨i', hi', rfl⟩ := Option.map_eq_some_iff.mp hi; exact hf i' hi'
    · exact h.counted m t i hi
  · obtain ⟨m, t⟩ := slot
    unfold Recorded
    simp only [hinfo, Prod.mk.injEq]
    split
    · simp only [Option.map_eq_some_iff]
      constructor
      · rintro ⟨_, ⟨i, hi, rfl⟩, hrest⟩; exact ⟨i, hi, hrest⟩
      · rintro ⟨i, hi, hrest⟩; exact ⟨_, ⟨i, hi, rfl⟩, hrest⟩
    · rfl

theorem Ledger.modifyInfo_id (h : obj.Ledger) (f : PktOfldInfo → PktOfldInfo)
    (hf : ∀ i, obj.info macid type = some i → Counted (f i))
    (hid : ∀ i, obj.info macid type = some i → (f i).id = i.id) :
    (obj.modifyInfo macid type f).Ledger := by
  refine h.modifyInfo f obj.fw hf fun R hR => h.mirror.congr (fun _ => Iff.rfl) fun slot id => ?_
  rw [hR]
  split
  · rename_i hslot
    rw [hslot]; exact exists_congr fun i => and_congr_right fun hi => by rw [hid i hi]
  · rfl

/-! ### The calls -/

theorem info_of_getEntry (he : obj.getEntry macid = some entry) :
    obj.info macid type = some (entry.pktInfo type) := congrArg (Option.map _) he

theorem Ledger.addEntry (h : obj.Ledger) (macid : ℕ) (mem : Bool) : (obj.addEntry macid mem).2.Ledger := by
  unfold PktOfldObj.addEntry
  split
  · exact h
  · rename_i hnone
    have hnone' : obj.getEntry macid = none := Option.not_isSome_iff_eq_none.mp hnone
    split
    · exact h
    · have hget : ∀ m, ((initEntry macid :: obj.entryQ).find? fun pos => pos.macid = m) =
          if m = macid then some (initEntry macid) else obj.getEntry m := by
        intro m
        by_cases hm : m = macid
        · rw [if_pos hm, List.find?_cons_of_pos (by simp [initEntry, hm])]
        · rw [if_neg hm, List.find?_cons_of_neg (by simp [initEntry, Ne.symm hm])]; rfl
      have hinfo : ∀ m t, info ⟨initEntry macid :: obj.entryQ, obj.entryCnt + 1, obj.curSeq, obj.fw⟩
          m t = if m = macid then some ⟨[], 0, notUsed⟩ else obj.info m t := by
        intro m t
        unfold info
        rw [show getEntry ⟨initEntry macid :: obj.entryQ, obj.entryCnt + 1, obj.curSeq, obj.fw⟩ m = _
          from hget m]
        split <;> rfl
      have hout : ∀ t, obj.info macid t = none := fun t => by rw [info, hnone']; rfl
      refine ⟨?_, fun m t i hi => ?_, h.mirror.congr (fun _ => Iff.rfl) fun slot id => ?_⟩
      · show ((initEntry macid :: obj.entryQ).map PktOfldEntry.macid).Nodup
        rw [List.map_cons, List.nodup_cons]
        refine ⟨fun hmem => ?_, h.keys⟩
        obtain ⟨e, he, hem⟩ := List.mem_map.mp hmem
        have hsome := (getEntry_eq_some h.keys).mpr ⟨he, hem⟩
        rw [show (initEntry macid).macid = macid from rfl, hnone'] at hsome; cases hsome
      · rw [hinfo] at hi
        split at hi
        · obtain rfl := Option.some.inj hi; exact ⟨rfl, by simp⟩
        · exact h.counted m t i hi
      · unfold Recorded
        rw [hinfo]
        split
        · rename_i hm
          rw [hm, hout]
          constructor
          · rintro ⟨i, hi, hid, hne⟩
            obtain rfl := Option.some.inj hi
            exact absurd hid.symm hne
          · rintro ⟨i, hi, -⟩; cases hi
        · rfl

variable {id : ℕ}

theorem recorded_of_getEntry (he : obj.getEntry macid = some entry) :
    obj.Recorded (macid, type) id ↔ (entry.pktInfo type).id = id ∧ id ≠ notUsed := by
  unfold Recorded
  rw [info_of_getEntry he]; simp

variable {del : PktType → Bool}

theorem Ledger.reset (h : obj.Ledger) (he : obj.getEntry macid = some entry)
    (hdel : ∀ idx, (entry.pktInfo idx).id ≠ notUsed → del idx = true) :
    ((obj.cancelEntryPkt entry del).modifyEntry macid PktOfldEntry.delEntryReq).Ledger := by
  obtain ⟨hq, hfw⟩ := cancelEntryPkt_eq obj entry del
  have hinfo₁ : (obj.cancelEntryPkt entry del).info = obj.info := by
    unfold info getEntry
    rw [hq]
  have hinfo : ∀ m t, ((obj.cancelEntryPkt entry del).modifyEntry macid
      PktOfldEntry.delEntryReq).info m t = if m = macid then
        (obj.info macid t).map fun i => PktOfldInfo.delAllReq { i with id := notUsed }
        else obj.info m t := by
    intro m t
    rw [info_delEntryReq, hinfo₁]
  refine ⟨?_, fun m t i hi => ?_, ?_⟩
  · show (((obj.cancelEntryPkt entry del).entryQ.modify _ _).map PktOfldEntry.macid).Nodup
    rw [map_modify delEntryReq_macid, hq]; exact h.keys
  · rw [hinfo] at hi
    split at hi
    · obtain ⟨i', hi', rfl⟩ := Option.map_eq_some_iff.mp hi
      rw [delAllReq_eq]
      refine ⟨?_, ?_⟩
      · simp [(h.counted _ _ i' hi').1]
      · simp [(h.counted _ _ i' hi').1]
    · exact h.counted m t i hi
  · refine h.mirror.drop (D := fun slot => slot.1 = macid) (fun id => ?_) fun slot id => ?_
    · refine (hfw id).trans (and_congr_right fun _ => not_congr ?_)
      constructor
      · rintro ⟨idx, hu, -, hid⟩
        have hu' : (entry.pktInfo idx).id ≠ notUsed := by simpa [PktOfldInfo.isPktOfld] using hu
        exact ⟨(macid, idx), rfl, (recorded_of_getEntry he).mpr ⟨hid, hid ▸ hu'⟩⟩
      · rintro ⟨⟨m, idx⟩, hm, hrec⟩
        obtain rfl : m = macid := hm
        obtain ⟨hid, hne⟩ := (recorded_of_getEntry he).mp hrec
        have hu : (entry.pktInfo idx).id ≠ notUsed := hid ▸ hne
        exact ⟨idx, decide_eq_true hu, hdel idx hu, hid⟩
    · obtain ⟨m, t⟩ := slot
      unfold Recorded
      rw [hinfo]
      by_cases hm : m = macid
      · rw [if_pos hm]
        refine iff_of_false ?_ fun hc => hc.2 hm
        rintro ⟨i, hi, hid, hne⟩
        obtain ⟨i', -, rfl⟩ := Option.map_eq_some_iff.mp hi
        rw [delAllReq_eq] at hid; exact hne hid.symm
      · rw [if_neg hm]; exact (and_iff_left hm).symm

theorem Ledger.delEntryNode (h : obj.Ledger) (hnone : ∀ t id, ¬ obj.Recorded (macid, t) id) :
    (obj.delEntryNode macid).Ledger := by
  have hinfo : ∀ m t, (obj.delEntryNode macid).info m t = if m = macid then none else obj.info m t := by
    intro m t
    unfold info
    rw [getEntry_delEntryNode h.keys]
    split <;> rfl
  refine ⟨?_, fun m t i hi => ?_, h.mirror.congr (fun _ => Iff.rfl) fun slot id => ?_⟩
  · exact h.keys.sublist ((List.eraseP_sublist ..).map _)
  · rw [hinfo] at hi
    split at hi
    · cases hi
    · exact h.counted m t i hi
  · obtain ⟨m, t⟩ := slot
    by_cases hm : m = macid
    · refine iff_of_false ?_ (hm ▸ hnone t id)
      rintro ⟨i, hi, -⟩
      rw [hinfo, if_pos hm] at hi; cases hi
    · unfold Recorded; rw [hinfo, if_neg hm]

theorem not_recorded_reset (macid : ℕ) (t : PktType) (id : ℕ) :
    ¬ (obj.modifyEntry macid PktOfldEntry.delEntryReq).Recorded (macid, t) id := by
  rintro ⟨i, hi, hid, hne⟩
  rw [info_delEntryReq, if_pos rfl] at hi
  obtain ⟨i', -, rfl⟩ := Option.map_eq_some_iff.mp hi
  rw [delAllReq_eq] at hid; exact hne hid.symm

/-- A call forgets an id that the firmware holds: the update of the ids fails behind a packet that was added,
or a packet of an entry that goes is not deleted. -/
def Leaks (obj : PktOfldObj) : OfldEv → Prop
  | .request macid type memReq memName construct add updateIds =>
    memReq = true ∧ memName = true ∧ construct = true ∧ add.isSome ∧ updateIds = false ∧
      ∃ i, obj.info macid type = some i ∧ i.id = notUsed
  | .delEntry macid del | .resetEntry macid del =>
    ∃ type i, obj.info macid type = some i ∧ i.id ≠ notUsed ∧ del type = false
  | _ => False

/-- A call that fails changes neither the entries nor what the firmware holds. -/
def FailKeeps (obj : PktOfldObj) (r : PhlStatus × PktOfldObj) : Prop :=
  r.1 ≠ .success → r.2.entryQ = obj.entryQ ∧ r.2.fw = obj.fw

variable {i : PktOfldInfo}

section

variable (h : obj.Ledger) (hi : obj.info macid type = some i)

include h hi

theorem Ledger.addReq (hid : i.id ≠ notUsed) (token : ℕ) :
    (obj.modifyInfo macid type fun i => i.addReq token).Ledger := by
  refine h.modifyInfo_id _ (fun i' hi' => ?_) fun _ _ => rfl
  obtain rfl := Option.some.inj (hi.symm.trans hi')
  exact ⟨congrArg (· + 1) (h.counted _ _ i hi).1, iff_of_true hid (Nat.succ_pos _)⟩

theorem Ledger.addPkt (hid : i.id = notUsed) (token : ℕ) (hlt : id < notUsed) (hnew : obj.fw id = false) :
    PktOfldObj.Ledger { obj.modifyInfo macid type fun i => { i.addReq token with id := id } with
      fw := update obj.fw id true } := by
  refine h.modifyInfo _ _ (fun i' hi' => ?_) fun R hR => ?_
  · obtain rfl := Option.some.inj (hi.symm.trans hi')
    exact ⟨congrArg (· + 1) (h.counted _ _ i hi).1, iff_of_true (Nat.ne_of_lt hlt) (Nat.succ_pos _)⟩
  · refine h.mirror.add (k := (macid, type)) (i := id) (by simp [hnew]) (fun j => ?_)
      fun slot j => ?_
    · by_cases hj : j = id
      · subst hj; simp
      · simp [hj]
    · rw [hR]
      split
      · rename_i hslot
        subst hslot
        -- nothing was recorded in the slot
        have hnone : ¬ obj.Recorded (macid, type) j := by
          rintro ⟨i', hi', hid', hne⟩
          obtain rfl := Option.some.inj (hi.symm.trans hi')
          exact hne (hid'.symm.trans hid)
        simp only [hi, Option.some.injEq, exists_eq_left', true_and, hnone, false_or]
        constructor
        · exact fun hc => hc.1.symm
        · rintro rfl; exact ⟨rfl, Nat.ne_of_lt hlt⟩
      · rename_i hslot
        simp [hslot]

theorem Ledger.delReq {token : ℕ} (ht : token ∈ i.reqQ) (hcnt : i.reqCnt ≠ 1) :
    (obj.modifyInfo macid type fun i => i.delReq token).Ledger := by
  refine h.modifyInfo_id _ (fun i' hi' => ?_) fun _ _ => rfl
  obtain rfl := Option.some.inj (hi.symm.trans hi')
  obtain ⟨hlen, hused⟩ := h.counted _ _ i hi
  have hpos := List.length_pos_of_mem ht
  refine ⟨?_, ?_⟩
  · show i.reqCnt - 1 = (i.reqQ.erase token).length; rw [List.length_erase_of_mem ht, hlen]
  · show i.id ≠ notUsed ↔ 0 < i.reqCnt - 1
    rw [hused]; omega

theorem Ledger.delPkt (hid : i.id ≠ notUsed) {token : ℕ} (ht : token ∈ i.reqQ) (hcnt : i.reqCnt = 1) :
    PktOfldObj.Ledger { obj.modifyInfo macid type fun i =>
      ({ i with id := notUsed } : PktOfldInfo).delReq token with
      fw := update obj.fw i.id false } := by
  refine h.modifyInfo _ _ (fun i' hi' => ?_) fun R hR => ?_
  · obtain rfl := Option.some.inj (hi.symm.trans hi')
    refine ⟨?_, iff_of_false (by simp [PktOfldInfo.delReq]) ?_⟩
    · show i.reqCnt - 1 = (i.reqQ.erase token).length
      rw [List.length_erase_of_mem ht, (h.counted _ _ i hi).1]
    · show ¬ 0 < i.reqCnt - 1; omega
  · have hrec : ∀ j, obj.Recorded (macid, type) j ↔ j = i.id := by
      intro j
      unfold Recorded
      simp only [hi, Option.some.injEq, exists_eq_left']
      constructor
      · exact fun hc => hc.1.symm
      · rintro rfl; exact ⟨rfl, hid⟩
    refine h.mirror.drop (D := fun slot => slot = (macid, type)) (fun j => ?_) fun slot j => ?_
    · simp only [exists_eq_left, hrec]
      by_cases hj : j = i.id
      · subst hj; simp
      · simp [hj]
    · rw [hR]
      split
      · rename_i hslot
        refine iff_of_false ?_ fun hc => hc.2 hslot
        rintro ⟨i', -, hid', hne⟩
        exact hne hid'.symm
      · rename_i hslot
        exact (and_iff_left hslot).symm

end

theorem Ledger.request (h : obj.Ledger) {memReq memName construct updateIds : Bool} {add : Option ℕ}
    (hen : obj.Enabled (.request macid type memReq memName construct add updateIds))
    (hnot : ¬ obj.Leaks (.request macid type memReq memName construct add updateIds)) :
    (obj.request macid type memReq memName construct add updateIds).2.Ledger ∧
      obj.FailKeeps (obj.request macid type memReq memName construct add updateIds) := by
  cases he : obj.getEntry macid with
  | none =>
    rw [PktOfldObj.request, he]; exact ⟨h, fun _ => ⟨rfl, rfl⟩⟩
  | some entry =>
    have hi : obj.info macid type = some (entry.pktInfo type) := info_of_getEntry he
    let obj₁ := { obj with curSeq := (obj.curSeq + 1) % 2 ^ 32 }
    have h₁ : obj₁.Ledger := h.congr rfl rfl
    cases memReq with
    | false =>
      rw [PktOfldObj.request, he]; exact ⟨h, fun _ => ⟨rfl, rfl⟩⟩
    | true =>
      cases memName with
      | false =>
        rw [PktOfldObj.request, he]; exact ⟨h₁, fun _ => ⟨rfl, rfl⟩⟩
      | true =>
        rw [request_cases he]
        by_cases hid : (entry.pktInfo type).id = notUsed
        · rw [if_neg (not_not.mpr hid)]
          cases construct with
          | false => exact ⟨h₁, fun _ => ⟨rfl, rfl⟩⟩
          | true =>
            cases add with
            | none => exact ⟨h₁, fun _ => ⟨rfl, rfl⟩⟩
            | some id =>
              cases updateIds with
              | false => exact absurd ⟨rfl, rfl, rfl, rfl, rfl, _, hi, hid⟩ hnot
              | true => exact ⟨h₁.addPkt hi hid obj.curSeq hen.1 hen.2, fun hf => absurd rfl hf⟩
        · rw [if_pos hid]; exact ⟨h₁.addReq hi hid obj.curSeq, fun hf => absurd rfl hf⟩

theorem Ledger.cancel (h : obj.Ledger) (macid : ℕ) (type : PktType) (token : ℕ) (del : Bool) :
    (obj.cancel macid type token del).2.Ledger ∧ obj.FailKeeps (obj.cancel macid type token del) := by
  cases he : obj.getEntry macid with
  | none =>
    simp only [PktOfldObj.cancel, he]; exact ⟨h, fun _ => ⟨rfl, rfl⟩⟩
  | some entry =>
    have hi : obj.info macid type = some (entry.pktInfo type) := info_of_getEntry he
    simp only [PktOfldObj.cancel, he]
    by_cases hid : (entry.pktInfo type).id = notUsed
    · rw [if_pos hid]; exact ⟨h, fun _ => ⟨rfl, rfl⟩⟩
    · rw [if_neg hid]
      by_cases ht : token ∈ (entry.pktInfo type).reqQ
      · rw [if_neg (not_not.mpr ht)]
        have hofld : (entry.pktInfo type).isPktOfld = true := decide_eq_true hid
        unfold PktOfldObj.delPkt
        rw [hofld, if_neg (by decide)]
        by_cases hcnt : (entry.pktInfo type).reqCnt = 1
        · rw [if_neg (not_not.mpr hcnt)]
          cases del with
          | false => exact ⟨h, fun _ => ⟨rfl, rfl⟩⟩
          | true =>
            rw [macid_of_getEntry he]
            refine ⟨?_, fun hf => absurd rfl hf⟩
            have hsame : (obj.modifyInfo macid type fun i => { i with id := notUsed }).modifyInfo
                macid type (fun i => i.delReq token) = obj.modifyInfo macid type
                fun i => ({ i with id := notUsed } : PktOfldInfo).delReq token :=
              modifyInfo_modifyInfo ..
            have hled := h.delPkt hi hid ht hcnt
            rw [← hsame] at hled; exact hled
        · rw [if_pos hcnt]; exact ⟨h.delReq hi ht hcnt, fun hf => absurd rfl hf⟩
      · rw [if_pos ht]; exact ⟨h, fun _ => ⟨rfl, rfl⟩⟩

theorem Ledger.clear (h : obj.Ledger) {macid : ℕ}
    (hnot : ¬ ∃ type i, obj.info macid type = some i ∧ i.id ≠ notUsed ∧ del type = false) :
    (obj.delEntry macid del).2.Ledger ∧ (obj.resetEntry macid del).2.Ledger := by
  unfold PktOfldObj.delEntry PktOfldObj.resetEntry
  cases he : obj.getEntry macid with
  | none => exact ⟨h, h⟩
  | some entry =>
    have hdel : ∀ idx, (entry.pktInfo idx).id ≠ notUsed → del idx = true := by
      intro idx hid
      rw [← Bool.not_eq_false]; exact fun hfalse => hnot ⟨idx, _, info_of_getEntry he, hid, hfalse⟩
    have hled := h.reset he hdel
    exact ⟨hled.delEntryNode (not_recorded_reset macid), hled⟩

theorem Ledger.step (h : obj.Ledger) {e : OfldEv} (hen : obj.Enabled e) (hnot : ¬ obj.Leaks e) :
    (obj.step e).Ledger ∧ obj.FailKeeps (obj.call e) := by
  cases e with
  | addEntry macid mem =>
    refine ⟨h.addEntry macid mem, ?_⟩
    show obj.FailKeeps (obj.addEntry macid mem)
    unfold PktOfldObj.addEntry
    split
    · exact fun _ => ⟨rfl, rfl⟩
    · split
      · exact fun _ => ⟨rfl, rfl⟩
      · exact fun hf => absurd rfl hf
  | delEntry macid del =>
    refine ⟨(h.clear hnot).1, ?_⟩
    show obj.FailKeeps (obj.delEntry macid del)
    unfold PktOfldObj.delEntry
    split
    · exact fun _ => ⟨rfl, rfl⟩
    · exact fun hf => absurd rfl hf
  | resetEntry macid del =>
    refine ⟨(h.clear hnot).2, ?_⟩
    show obj.FailKeeps (obj.resetEntry macid del)
    unfold PktOfldObj.resetEntry
    split
    · exact fun _ => ⟨rfl, rfl⟩
    · exact fun hf => absurd rfl hf
  | request macid type memReq memName construct add updateIds => exact h.request hen hnot
  | cancel macid type token del => exact h.cancel macid type token del

/-! ### The runs -/

/-- What is said of the entries, the requests and the firmware. -/
structure LedgerOk (obj : PktOfldObj) : Prop where
  /-- A station has at most one entry. -/
  keys : (obj.entryQ.map PktOfldEntry.macid).Nodup
  reqCnt : ∀ e ∈ obj.entryQ, ∀ t, (e.pktInfo t).reqCnt = (e.pktInfo t).reqQ.length
  used : ∀ e ∈ obj.entryQ, ∀ t, (e.pktInfo t).id ≠ notUsed ↔ 0 < (e.pktInfo t).reqCnt
  held : ∀ id, obj.fw id = true ↔ ∃ e ∈ obj.entryQ, ∃ t, (e.pktInfo t).id = id ∧ id ≠ notUsed

theorem exists_recorded (hkeys : (obj.entryQ.map PktOfldEntry.macid).Nodup) (id : ℕ) :
    (∃ slot, obj.Recorded slot id) ↔ ∃ e ∈ obj.entryQ, ∃ t, (e.pktInfo t).id = id ∧ id ≠ notUsed := by
  constructor
  · rintro ⟨⟨m, t⟩, i, hi, hid, hne⟩
    obtain ⟨e, he, rfl⟩ := Option.map_eq_some_iff.mp hi
    exact ⟨e, ((getEntry_eq_some hkeys).mp he).1, t, hid, hne⟩
  · rintro ⟨e, he, t, hid, hne⟩
    have hget := (getEntry_eq_some hkeys).mpr ⟨he, rfl⟩
    exact ⟨(e.macid, t), _, info_of_getEntry hget, hid, hne⟩

theorem Ledger.ledgerOk (h : obj.Ledger) : obj.LedgerOk := by
  have hinfo : ∀ e ∈ obj.entryQ, ∀ t, obj.info e.macid t = some (e.pktInfo t) := fun e he t =>
    info_of_getEntry ((getEntry_eq_some h.keys).mpr ⟨he, rfl⟩)
  refine ⟨h.keys, fun e he t => (h.counted _ _ _ (hinfo e he t)).1,
    fun e he t => (h.counted _ _ _ (hinfo e he t)).2, fun id => ?_⟩
  rw [← exists_recorded h.keys]; exact h.mirror.holds id

theorem LedgerOk.holds (h : obj.LedgerOk) (id : ℕ) : obj.fw id = true ↔ ∃ slot, obj.Recorded slot id :=
  (h.held id).trans (exists_recorded h.keys id).symm

theorem recorded_reset {slot : ℕ × PktType} (hrec : ((obj.cancelEntryPkt entry del).modifyEntry macid
      PktOfldEntry.delEntryReq).Recorded slot id) : obj.Recorded slot id ∧ slot.1 ≠ macid := by
  obtain ⟨m, t⟩ := slot
  by_cases hm : m = macid
  · subst hm; exact (not_recorded_reset m t id hrec).elim
  · refine ⟨?_, hm⟩
    unfold Recorded at hrec ⊢
    rw [info_delEntryReq, if_neg hm] at hrec
    unfold info getEntry at hrec ⊢
    rwa [(cancelEntryPkt_eq obj entry del).1] at hrec

theorem recorded_delEntryNode (hkeys : (obj.entryQ.map PktOfldEntry.macid).Nodup)
    {slot : ℕ × PktType} (hrec : (obj.delEntryNode macid).Recorded slot id) :
    obj.Recorded slot id := by
  obtain ⟨i, hi, hrest⟩ := hrec
  refine ⟨i, ?_, hrest⟩
  unfold info at hi ⊢
  rw [getEntry_delEntryNode hkeys] at hi
  split at hi
  · cases hi
  · exact hi

theorem kept_reset (h : obj.Ledger) (he : obj.getEntry macid = some entry)
    (hid : (entry.pktInfo type).id ≠ notUsed) (hdel : del type = false) :
    (obj.cancelEntryPkt entry del).fw (entry.pktInfo type).id = true := by
  have hrec : ∀ idx, (entry.pktInfo idx).id = (entry.pktInfo type).id →
      obj.Recorded (macid, idx) (entry.pktInfo type).id := fun idx heq =>
    (recorded_of_getEntry he).mpr ⟨heq, hid⟩
  refine ((cancelEntryPkt_eq obj entry del).2 _).mpr ⟨(h.mirror.holds _).mpr ⟨_, hrec type rfl⟩, ?_⟩
  rintro ⟨idx, -, hidx, heq⟩
  -- no other type has the id
  have hslot := h.mirror.inj _ _ _ (hrec idx heq) (hrec type rfl)
  rw [(Prod.mk.inj hslot).2, hdel] at hidx; cases hidx

theorem Ledger.not_ledgerOk (h : obj.Ledger) {e : OfldEv} (hen : obj.Enabled e)
    (hleak : obj.Leaks e) : ¬ (obj.step e).LedgerOk := by
  intro hok
  cases e with
  | addEntry macid mem => exact hleak
  | cancel macid type token del => exact hleak
  | request macid type memReq memName construct add updateIds =>
    obtain ⟨rfl, rfl, rfl, hadd, rfl, i, hi, hid⟩ := hleak
    obtain ⟨entry, he, rfl⟩ := Option.map_eq_some_iff.mp hi
    obtain ⟨id, rfl⟩ := Option.isSome_iff_exists.mp hadd
    have hstep : obj.step (.request macid type true true true (some id) false) = { obj with
          curSeq := (obj.curSeq + 1) % 2 ^ 32
          fw := update obj.fw id true } := by
      show (obj.request macid type true true true (some id) false).2 = _
      rw [request_cases he, if_neg (not_not.mpr hid)]; rfl
    rw [hstep] at hok
    refine h.mirror.not_of_unrecorded (i := id) ?_ ?_ (fun _ _ hrec => hrec) hok.holds
    · simp [hen.2]
    · simp
  | delEntry macid del =>
    obtain ⟨type, i, hi, hid, hdel⟩ := hleak
    obtain ⟨entry, he, rfl⟩ := Option.map_eq_some_iff.mp hi
    have hkeys : (((obj.cancelEntryPkt entry del).modifyEntry macid
        PktOfldEntry.delEntryReq).entryQ.map PktOfldEntry.macid).Nodup := by
      show (((obj.cancelEntryPkt entry del).entryQ.modify _ _).map PktOfldEntry.macid).Nodup
      rw [map_modify delEntryReq_macid, (cancelEntryPkt_eq obj entry del).1]; exact h.keys
    have hstep : obj.step (.delEntry macid del) = ((obj.cancelEntryPkt entry del).modifyEntry macid
        PktOfldEntry.delEntryReq).delEntryNode macid := by
      show (obj.delEntry macid del).2 = _
      rw [PktOfldObj.delEntry, he]
    rw [hstep] at hok
    refine h.mirror.not_of_kept (k := (macid, type)) ((recorded_of_getEntry he).mpr ⟨rfl, hid⟩)
      (kept_reset h he hid hdel) (fun slot j hrec => ?_) hok.holds
    obtain ⟨hold, hne⟩ := recorded_reset (recorded_delEntryNode hkeys hrec)
    exact ⟨hold, fun heq => hne (congrArg Prod.fst heq)⟩
  | resetEntry macid del =>
    obtain ⟨type, i, hi, hid, hdel⟩ := hleak
    obtain ⟨entry, he, rfl⟩ := Option.map_eq_some_iff.mp hi
    have hstep : obj.step (.resetEntry macid del) =
        (obj.cancelEntryPkt entry del).modifyEntry macid PktOfldEntry.delEntryReq := by
      show (obj.resetEntry macid del).2 = _
      rw [PktOfldObj.resetEntry, he]
    rw [hstep] at hok
    refine h.mirror.not_of_kept (k := (macid, type)) ((recorded_of_getEntry he).mpr ⟨rfl, hid⟩)
      (kept_reset h he hid hdel) (fun slot j hrec => ?_) hok.holds
    obtain ⟨hold, hne⟩ := recorded_reset hrec
    exact ⟨hold, fun heq => hne (congrArg Prod.fst heq)⟩

/-- The ledger is right in every state of a run, and no failed call of it changes anything, exactly when no
call of the run leaks. -/
theorem ledgerOk_iff {es : List OfldEv} (hes : Legal step Enabled pktOfldInit es) :
    ((∀ pre, pre <+: es → (pre.foldl step pktOfldInit).LedgerOk) ∧ ∀ pre e, pre ++ [e] <+: es →
        (pre.foldl step pktOfldInit).FailKeeps ((pre.foldl step pktOfldInit).call e)) ↔
      ∀ pre e, pre ++ [e] <+: es → ¬ (pre.foldl step pktOfldInit).Leaks e := by
  have hall := Legal.always_iff (J := Ledger) (P := LedgerOk) (B := Leaks) ledger_init
    (fun _ h => h.ledgerOk) (fun _ _ h hen hnot => (h.step hen hnot).1)
    (fun _ _ h hen hleak => h.not_ledgerOk hen hleak) hes
  constructor
  · exact fun h => hall.mp h.1
  · intro hnot
    refine ⟨hall.mpr hnot, fun pre e hpre => ?_⟩
    have hled := hes.keeps (J := Ledger) ledger_init (fun _ _ h hen hnot => (h.step hen hnot).1) hnot
      ((List.prefix_append _ _).trans hpre)
    exact (hled.step (hes.last hpre) (hnot pre e hpre)).2

/-- A packet is requested twice, and both requests end. -/
def someOflds : List OfldEv :=
  [.addEntry 3 true, .request 3 .nullData true true true (some 0) true,
    .request 3 .nullData true true true none true, .cancel 3 .nullData 0 true,
    .cancel 3 .nullData 1 true]

def Harmless : OfldEv → Prop
  | .addEntry _ _ | .cancel _ _ _ _ | .request _ _ _ _ _ _ true => True
  | _ => False

instance (e : OfldEv) : Decidable (Harmless e) := by
  unfold Harmless
  split <;> infer_instance

theorem Harmless.not_leaks {e : OfldEv} (h : Harmless e) : ¬ obj.Leaks e := by
  cases e with
  | addEntry => exact id
  | cancel => exact id
  | delEntry => exact h.elim
  | resetEntry => exact h.elim
  | request macid type memReq memName construct add updateIds =>
    cases updateIds with
    | false => exact h.elim
    | true => exact fun hl => by cases hl.2.2.2.2.1

theorem ledgerOk_iff_oflds :
    (someOflds.foldl step pktOfldInit).LedgerOk ∧ (someOflds.foldl step pktOfldInit).curSeq = 2 := by
  have hes : Legal step Enabled pktOfldInit someOflds := by decide
  have hall : ∀ e ∈ someOflds, Harmless e := by decide
  refine ⟨((ledgerOk_iff hes).mpr fun pre e hpre => ?_).1 someOflds (List.prefix_refl _), by decide⟩
  exact (hall e (hpre.subset (by simp))).not_leaks

/-- The firmware holds a packet that nobody knows of, when the update of the ids fails. -/
theorem update_leaks : ¬ ∀ es : List OfldEv, Legal step Enabled pktOfldInit es →
    (es.foldl step pktOfldInit).LedgerOk := by
  intro h
  let es : List OfldEv := [.addEntry 3 true, .request 3 .nullData true true true (some 0) false]
  have hok := h es (by decide)
  obtain ⟨e, he, t, hid, -⟩ := (hok.held 0).mp (by decide)
  have hnone : ∀ e ∈ (es.foldl step pktOfldInit).entryQ, ∀ t ∈ PktType.all, (e.pktInfo t).id ≠ 0 := by decide
  exact hnone e he t (by cases t <;> decide) hid

end PktOfldObj

end Rtl8852cu.Ofld
