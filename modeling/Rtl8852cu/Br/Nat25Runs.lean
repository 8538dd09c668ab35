import Rtl8852cu.Br.Nat25
import Rtl8852cu.Lib.Reach
import Mathlib.Data.List.Nodup

/-!
# The NAT2.5 table as a map with ageing

A run of the table next to the map that it stands for: for each network address the MAC address last inserted, when the
entry was last refreshed and how often it is in use.  The loops compare with `!_rtw_memcmp`, which is true of two different
addresses, so an entry is never found under its own address and is found under every other one of its chain.
`nat25_map_iff`: the table is the map exactly as long as no call comes to a chain that is not empty, but for the calls that
would have changed nothing.
-/

namespace Rtl8852cu.Br

open Lib
open Function (update update_self update_of_ne)

structure Nat25Client where
  mac : MacAddr
  refreshed : Jiffies
  uses : BitVec 32
  deriving DecidableEq

abbrev Nat25Map := NetworkAddr → Option Nat25Client

/-- The calls, with the time; `clientTx` is an IP frame of a client. -/
inductive Nat25Call
  | insert (mac : MacAddr) (addr : NetworkAddr) (now : Jiffies) (malloc : Bool)
  | lookup (addr : NetworkAddr) (dst : MacAddr) (now : Jiffies)
  | expire (now : Jiffies)
  | cleanup
  | clientTx (sa : MacAddr) (ip : BitVec 8 × BitVec 8 × BitVec 8 × BitVec 8) (now : Jiffies)

/-- The table, the map, and the answer of the last lookup as it is and as it should be. -/
structure Nat25Run where
  priv : Adapter
  map : Nat25Map
  answer : Bool × MacAddr
  expected : Bool × MacAddr

def Nat25Run.start : Nat25Run := ⟨⟨fun _ => [], 0, none, 0⟩, fun _ => none, (false, 0), (false, 0)⟩

def ipAddr (ip : BitVec 8 × BitVec 8 × BitVec 8 × BitVec 8) : NetworkAddr :=
  nat25GenerateIpv4NetworkAddr ip.1 ip.2.1 ip.2.2.1 ip.2.2.2

def Adapter.entryAt (s : Adapter) (ptr : ℕ) : Option Nat25NetworkDbEntry :=
  (Adapter.hashes.flatMap s.nethash).find? fun db => decide (db.ptr = ptr)

/-- The address that a frame of a client refreshes: its own, or that of `scdb_entry`. -/
def Adapter.txRefreshes (s : Adapter) (sa : MacAddr) (addr : NetworkAddr) : Option NetworkAddr :=
  if s.scdbMac = sa then some addr
  else s.scdbEntry.bind fun ptr => (s.entryAt ptr).map Nat25NetworkDbEntry.networkAddr

namespace Nat25Map

variable (hz now : Jiffies) (addr : NetworkAddr) (m : Nat25Map)

def refresh : Nat25Map := update m addr ((m addr).map fun r => { r with refreshed := now })

def insert (mac : MacAddr) (malloc : Bool) : Nat25Map :=
  update m addr (match m addr with
    | some r => some { r with mac := mac, refreshed := now }
    | none => if malloc then some ⟨mac, now, 1⟩ else none)

/-- The client a lookup finds: one that was refreshed within the ageing time. -/
def fresh : Option Nat25Client := (m addr).filter fun r => !nat25HasExpired hz now r.refreshed

def lookup : Nat25Map :=
  match m.fresh hz now addr with
  | some r => update m addr (some { r with uses := r.uses + 1 })
  | none => m

def lookupAnswer (dst : MacAddr) : Bool × MacAddr := ((m.fresh hz now addr).isSome, ((m.fresh hz now addr).map Nat25Client.mac).getD dst)

/-- An aged client loses one use, and is gone with the last. -/
def expireClient (r : Nat25Client) : Option Nat25Client :=
  if nat25HasExpired hz now r.refreshed then
    if r.uses - 1 = 0 then none else some { r with uses := r.uses - 1 }
  else some r

end Nat25Map

/-- One call, of the table and of the map. -/
def Nat25Run.step (hz : Jiffies) (s : Nat25Run) : Nat25Call → Nat25Run
  | .insert mac addr now malloc =>
    { s with priv := s.priv.nat25DbNetworkInsert now addr mac malloc, map := s.map.insert now addr mac malloc }
  | .lookup addr dst now =>
    let r := s.priv.nat25DbNetworkLookupAndReplace hz now addr dst
    { priv := r.2, map := s.map.lookup hz now addr, answer := r.1, expected := s.map.lookupAnswer hz now addr dst }
  | .expire now =>
    { s with priv := s.priv.nat25DbExpire hz now, map := fun addr => (s.map addr).bind (Nat25Map.expireClient hz now) }
  | .cleanup => { s with priv := s.priv.nat25DbCleanup, map := fun _ => none }
  | .clientTx sa ip now =>
    { s with
      priv := s.priv.rtwBrClientTx now (ipAddr ip) sa
      map := ((s.priv.txRefreshes sa (ipAddr ip)).map fun addr => s.map.refresh now addr).getD s.map }

def Nat25NetworkDbEntry.client (db : Nat25NetworkDbEntry) : Nat25Client := ⟨db.macAddr, db.ageingTimer, db.useCount⟩

def Adapter.stored (s : Adapter) (addr : NetworkAddr) : Option Nat25Client :=
  ((s.nethash (nat25NetworkHash addr)).find? fun db => decide (db.networkAddr = addr)).map Nat25NetworkDbEntry.client

/-- **The table is the map**: each address is stored once, in the chain of its hash, with what the map has for it; the last
lookup was answered as the map says; and `scdb_entry` is `NULL` or a linked entry. -/
structure Nat25Run.Good (s : Nat25Run) : Prop where
  once : ∀ hash, ((s.priv.nethash hash).map Nat25NetworkDbEntry.networkAddr).Nodup
  hashed : ∀ hash, ∀ db ∈ s.priv.nethash hash, nat25NetworkHash db.networkAddr = hash
  contents : ∀ addr, s.priv.stored addr = s.map addr
  answered : s.answer = s.expected
  scdb : ∀ ptr, s.priv.scdbEntry = some ptr → ∃ hash, ∃ db ∈ s.priv.nethash hash, db.ptr = ptr

/-- A call that may refresh the client of an address. -/
def Nat25Call.Refreshes (addr : NetworkAddr) : Nat25Call → Prop
  | .insert _ addr' _ _ => addr' = addr
  | .clientTx .. => True
  | _ => False

/-- The passes of `nat25_db_expire` among some calls. -/
def passes : List Nat25Call → List Jiffies
  | [] => []
  | .expire now :: calls => now :: passes calls
  | _ :: calls => passes calls

/-- An entry that is not refreshed any more, and is aged at each pass, is gone after as many passes as it has uses. -/
def Nat25Run.Drains (hz : Jiffies) (s : Nat25Run) (calls : List Nat25Call) : Prop :=
  ∀ hash, ∀ db ∈ s.priv.nethash hash, (∀ call ∈ calls, ¬ call.Refreshes db.networkAddr) →
    (∀ now ∈ passes calls, nat25HasExpired hz now db.ageingTimer = true) → db.useCount.toNat ≤ (passes calls).length →
    (calls.foldl (Nat25Run.step hz) s).priv.stored db.networkAddr = none

/-- A call that comes to an entry: an insert to a chain with one, unless there is no memory and the entry has the values
already; a lookup in such a chain, unless it has the address and has aged; a frame whose entry is searched for in such a
chain, unless the entry was written at this time. -/
def Nat25Call.Collides (hz : Jiffies) (s : Nat25Run) : Nat25Call → Prop
  | .insert mac addr now malloc =>
    ∃ db ∈ s.priv.nethash (nat25NetworkHash addr), malloc = true ∨ db.macAddr ≠ mac ∨ db.ageingTimer ≠ now
  | .lookup addr _ now =>
    ∃ db ∈ s.priv.nethash (nat25NetworkHash addr), db.networkAddr ≠ addr ∨ nat25HasExpired hz now db.ageingTimer = false
  | .clientTx sa ip now =>
    s.priv.scdbMac = sa ∧ ∃ db ∈ s.priv.nethash (nat25NetworkHash (ipAddr ip)), db.ageingTimer ≠ now
  | _ => False

/-! ### One entry a chain -/

/-- What the calls that do not collide keep: a chain has one entry at most, which is in use once. -/
structure Nat25Run.Inv (s : Nat25Run) : Prop extends s.Good where
  short : ∀ hash, s.priv.nethash hash = [] ∨ ∃ db, s.priv.nethash hash = [db]
  once_used : ∀ hash, ∀ db ∈ s.priv.nethash hash, db.useCount = 1
  old : ∀ hash, ∀ db ∈ s.priv.nethash hash, db.ptr < s.priv.next
  ptrs : ∀ hash hash', ∀ db ∈ s.priv.nethash hash, ∀ db' ∈ s.priv.nethash hash', db.ptr = db'.ptr → hash = hash'

namespace Nat25Run

variable {hz now : Jiffies} {s : Nat25Run} {addr : NetworkAddr}

theorem Inv.start : start.Inv where
  once := fun _ => List.nodup_nil
  hashed := nofun
  contents := fun _ => rfl
  answered := rfl
  scdb := nofun
  short := fun _ => Or.inl rfl
  once_used := nofun
  old := nofun
  ptrs := nofun

theorem stored_nil {s : Adapter} (h : s.nethash (nat25NetworkHash addr) = []) : s.stored addr = none := by
  unfold Adapter.stored
  rw [h]; rfl

variable {db : Nat25NetworkDbEntry}

theorem stored_cons {s : Adapter} (h : s.nethash (nat25NetworkHash addr) = [db]) :
    s.stored addr = if db.networkAddr = addr then some db.client else none := by
  unfold Adapter.stored
  rw [h, List.find?_singleton]
  by_cases ha : db.networkAddr = addr
  · rw [if_pos ha, if_pos (decide_eq_true ha)]; rfl
  · rw [if_neg ha, if_neg (by simpa using ha)]; rfl

theorem scdbFindEntry_nil {s : Adapter} (h : s.nethash (nat25NetworkHash addr) = []) : s.scdbFindEntry addr = none := by
  unfold Adapter.scdbFindEntry
  rw [h]; rfl

theorem scdbFindEntry_cons {s : Adapter} (h : s.nethash (nat25NetworkHash addr) = [db]) :
    s.scdbFindEntry addr = if db.networkAddr = addr then none else some db := by
  unfold Adapter.scdbFindEntry rtwMemcmp
  rw [h, List.find?_singleton]
  by_cases ha : db.networkAddr = addr
  · rw [if_pos ha, if_neg (by simpa using ha)]
  · rw [if_neg ha, if_pos (by simpa using ha)]

variable {r : Nat25Client}

theorem Inv.map_some (h : s.Inv) (hr : s.map addr = some r) :
    ∃ db, s.priv.nethash (nat25NetworkHash addr) = [db] ∧ db.networkAddr = addr ∧ db.client = r := by
  rcases h.short (nat25NetworkHash addr) with hnil | ⟨db, hdb⟩
  · exact nomatch (stored_nil hnil).symm.trans ((h.contents addr).trans hr)
  · have hst := (stored_cons hdb).symm.trans ((h.contents addr).trans hr)
    split_ifs at hst with ha
    exact ⟨db, hdb, ha, Option.some.inj hst⟩

variable {hash : BitVec 4}

theorem Inv.map_entry (h : s.Inv) (hdb : db ∈ s.priv.nethash hash) :
    s.priv.nethash hash = [db] ∧ s.map db.networkAddr = some db.client := by
  have hone : s.priv.nethash hash = [db] := by
    rcases h.short hash with hnil | ⟨db', hdb'⟩
    · rw [hnil] at hdb; exact nomatch hdb
    · rw [hdb'] at hdb ⊢; rw [List.mem_singleton.mp hdb]
  have hchain : s.priv.nethash (nat25NetworkHash db.networkAddr) = [db] := by
    rw [h.hashed hash db hdb]; exact hone
  exact ⟨hone, (h.contents _).symm.trans ((stored_cons hchain).trans (if_pos rfl))⟩

/-! ### Insert -/

variable {mac : MacAddr} {malloc : Bool} {m : Nat25Map}

theorem insert_self (h : m addr = none) :
    m.insert now addr mac malloc addr = if malloc = true then some ⟨mac, now, 1⟩ else none := by
  unfold Nat25Map.insert
  rw [update_self, h]

theorem insert_self_some (h : m addr = some r) :
    m.insert now addr mac malloc addr = some { r with mac := mac, refreshed := now } := by
  unfold Nat25Map.insert
  rw [update_self, h]

theorem insert_other {addr' : NetworkAddr} (h : addr' ≠ addr) :
    m.insert now addr mac malloc addr' = m addr' := update_of_ne h ..

theorem writeEntry_eq_self {s : Adapter} {ptr : ℕ} {f : Nat25NetworkDbEntry → Nat25NetworkDbEntry}
    (h : ∀ hash, ∀ db ∈ s.nethash hash, db.ptr = ptr → f db = db) : s.writeEntry ptr f = s := by
  have hchain : (fun hash => (s.nethash hash).map fun db => if db.ptr = ptr then f db else db) = s.nethash := by
    funext hash
    refine (List.map_congr_left fun db hdb => ?_).trans (List.map_id _)
    by_cases hp : db.ptr = ptr
    · rw [if_pos hp]; exact h hash db hdb hp
    · exact if_neg hp
  unfold Adapter.writeEntry
  rw [hchain]

theorem writeEntry_nethash {s : Adapter} {f : Nat25NetworkDbEntry → Nat25NetworkDbEntry} (h : s.nethash hash = [db]) :
    (s.writeEntry db.ptr f).nethash hash = [f db] := by
  unfold Adapter.writeEntry
  simp only
  rw [h, List.map_singleton, if_pos rfl]

theorem Inv.entry_eq (h : s.Inv) {hash' : BitVec 4} {db' : Nat25NetworkDbEntry} (hdb : db ∈ s.priv.nethash hash)
    (hdb' : db' ∈ s.priv.nethash hash') (hp : db.ptr = db'.ptr) : db = db' := by
  have hh := h.ptrs hash hash' db hdb db' hdb' hp
  subst hh
  rw [(h.map_entry hdb').1] at hdb; exact List.mem_singleton.mp hdb

theorem Inv.put (h : s.Inv) {p : Adapter} (ent : Nat25NetworkDbEntry)
    (hself : p.nethash (nat25NetworkHash ent.networkAddr) = [ent])
    (hother : ∀ hash, hash ≠ nat25NetworkHash ent.networkAddr → p.nethash hash = s.priv.nethash hash)
    (hwas : ∀ db ∈ s.priv.nethash (nat25NetworkHash ent.networkAddr),
      db.networkAddr = ent.networkAddr ∧ db.ptr = ent.ptr)
    (hptr : ∀ hash, hash ≠ nat25NetworkHash ent.networkAddr → ∀ db ∈ s.priv.nethash hash, db.ptr ≠ ent.ptr)
    (hold : ent.ptr < p.next) (hnext : s.priv.next ≤ p.next) (huse : ent.useCount = 1)
    (hm : m ent.networkAddr = some ent.client) (hmo : ∀ addr, addr ≠ ent.networkAddr → m addr = s.map addr)
    (hscdb : p.scdbEntry = s.priv.scdbEntry) : Inv { s with priv := p, map := m } := by
  have hmem : ∀ hash, ∀ db ∈ p.nethash hash,
      (hash = nat25NetworkHash ent.networkAddr ∧ db = ent) ∨ hash ≠ nat25NetworkHash ent.networkAddr ∧ db ∈ s.priv.nethash hash := by
    intro hash db hdb
    by_cases hh : hash = nat25NetworkHash ent.networkAddr
    · rw [hh, hself] at hdb; exact Or.inl ⟨hh, List.mem_singleton.mp hdb⟩
    · rw [hother hash hh] at hdb; exact Or.inr ⟨hh, hdb⟩
  exact {
    once := fun hash => by
      show ((p.nethash hash).map Nat25NetworkDbEntry.networkAddr).Nodup
      by_cases hh : hash = nat25NetworkHash ent.networkAddr
      · rw [hh, hself]; exact List.nodup_singleton _
      · rw [hother hash hh]; exact h.once hash
    hashed := fun hash db hdb => by
      rcases hmem hash db hdb with ⟨hh, rfl⟩ | ⟨-, hdb⟩
      · exact hh.symm
      · exact h.hashed hash db hdb
    contents := fun addr => by
      show p.stored addr = m addr
      by_cases hh : nat25NetworkHash addr = nat25NetworkHash ent.networkAddr
      · rw [stored_cons (hh ▸ hself)]
        by_cases ha : ent.networkAddr = addr
        · rw [if_pos ha, ← ha, hm]
        · have hnone : s.priv.stored addr = none := by
            unfold Adapter.stored
            rw [hh, List.find?_eq_none.mpr fun db hdb => ?_]
            · rfl
            · rw [(hwas db hdb).1]; exact fun he => ha (of_decide_eq_true he)
          rw [if_neg ha, hmo addr (Ne.symm ha), ← h.contents addr, hnone]
      · have ha : addr ≠ ent.networkAddr := fun he => hh (he ▸ rfl)
        rw [hmo addr ha, ← h.contents addr]
        unfold Adapter.stored
        rw [hother _ hh]
    answered := h.answered
    scdb := fun ptr hp => by
      obtain ⟨hash, db, hdb, hdp⟩ := h.scdb ptr (hscdb ▸ hp)
      by_cases hh : hash = nat25NetworkHash ent.networkAddr
      · exact ⟨_, ent, hself ▸ List.mem_singleton.mpr rfl, (hwas db (hh ▸ hdb)).2.symm.trans hdp⟩
      · exact ⟨hash, db, (hother hash hh).symm ▸ hdb, hdp⟩
    short := fun hash => by
      show p.nethash hash = [] ∨ ∃ db, p.nethash hash = [db]
      by_cases hh : hash = nat25NetworkHash ent.networkAddr
      · exact Or.inr ⟨ent, hh ▸ hself⟩
      · rw [hother hash hh]; exact h.short hash
    once_used := fun hash db hdb => by
      rcases hmem hash db hdb with ⟨-, rfl⟩ | ⟨-, hdb⟩
      · exact huse
      · exact h.once_used hash db hdb
    old := fun hash db hdb => by
      rcases hmem hash db hdb with ⟨-, rfl⟩ | ⟨-, hdb⟩
      · exact hold
      · exact Nat.lt_of_lt_of_le (h.old hash db hdb) hnext
    ptrs := fun hash hash' db hdb db' hdb' hp => by
      rcases hmem hash db hdb with ⟨hh, rfl⟩ | ⟨hh, hdb⟩ <;> rcases hmem hash' db' hdb' with ⟨hh', rfl⟩ | ⟨hh', hdb'⟩
      · exact hh.trans hh'.symm
      · exact absurd hp.symm (hptr hash' hh' db' hdb')
      · exact absurd hp (hptr hash hh db hdb)
      · exact h.ptrs hash hash' db hdb db' hdb' hp }

theorem Inv.insert_nil (h : s.Inv) (mac : MacAddr) (malloc : Bool) (hnil : s.priv.nethash (nat25NetworkHash addr) = []) :
    (s.step hz (.insert mac addr now malloc)).Inv := by
  have hmap : s.map addr = none := (h.contents addr).symm.trans (stored_nil hnil)
  unfold step Adapter.nat25DbNetworkInsert
  simp only
  rw [scdbFindEntry_nil hnil]
  simp only
  cases malloc with
  | false =>
    have hsame : s.map.insert now addr mac false = s.map := by
      funext addr'
      by_cases ha : addr' = addr
      · rw [ha, insert_self hmap, hmap]; rfl
      · exact insert_other ha
    rw [hsame]; exact h
  | true =>
    rw [if_pos rfl]
    unfold Adapter.networkHashLink
    simp only
    refine h.put ⟨s.priv.next, addr, mac, 1, now⟩ ?_ (fun hash hh => update_of_ne hh ..) ?_ ?_
      (Nat.lt_succ_self _) (Nat.le_succ _) rfl ?_ (fun addr' ha => insert_other ha) rfl
    · exact (update_self ..).trans (congrArg _ hnil)
    · intro db hdb
      rw [hnil] at hdb; exact nomatch hdb
    · exact fun hash _ db hdb => Nat.ne_of_lt (h.old hash db hdb)
    · exact (insert_self hmap).trans (if_pos rfl)

theorem Inv.insert_same (h : s.Inv) (hdb : db ∈ s.priv.nethash (nat25NetworkHash addr)) :
    (s.step hz (.insert db.macAddr addr db.ageingTimer false)).Inv := by
  obtain ⟨hone, hmap⟩ := h.map_entry hdb
  have hpriv : s.priv.nat25DbNetworkInsert db.ageingTimer addr db.macAddr false = s.priv := by
    unfold Adapter.nat25DbNetworkInsert
    rw [scdbFindEntry_cons hone]
    by_cases ha : db.networkAddr = addr
    · rw [if_pos ha]; rfl
    · rw [if_neg ha]
      refine writeEntry_eq_self fun hash db' hdb' hp => ?_
      rw [h.entry_eq hdb' hdb hp]
  have hsame : s.map.insert db.ageingTimer addr db.macAddr false = s.map := by
    funext addr'
    by_cases ha : addr' = addr
    · subst ha
      by_cases ha : db.networkAddr = addr'
      · rw [ha] at hmap
        rw [insert_self_some hmap, hmap]; rfl
      · have hnone : s.map addr' = none := by
          rw [← h.contents, stored_cons hone, if_neg ha]
        rw [insert_self hnone, hnone]; rfl
    · exact insert_other ha
  unfold step
  simp only
  rw [hpriv, hsame]; exact h

theorem Inv.insert_bad (h : s.Inv)
    (hdb : db ∈ s.priv.nethash (nat25NetworkHash addr)) (hne : malloc = true ∨ db.macAddr ≠ mac ∨ db.ageingTimer ≠ now) :
    ¬ (s.step hz (.insert mac addr now malloc)).Good := by
  obtain ⟨hone, hmap⟩ := h.map_entry hdb
  intro hgood
  by_cases ha : db.networkAddr = addr
  · -- the entry is passed over
    have hfind : s.priv.scdbFindEntry addr = none := (scdbFindEntry_cons hone).trans (if_pos ha)
    cases malloc with
    | true =>
      have honce : (((s.priv.nat25DbNetworkInsert now addr mac true).nethash (nat25NetworkHash addr)).map
          Nat25NetworkDbEntry.networkAddr).Nodup := hgood.once (nat25NetworkHash addr)
      unfold Adapter.nat25DbNetworkInsert at honce
      rw [hfind] at honce
      unfold Adapter.networkHashLink at honce
      simp only [if_true] at honce
      rw [update_self, hone, List.map_cons, List.map_singleton, ha] at honce
      exact (List.nodup_cons.mp honce).1 (List.mem_singleton.mpr rfl)
    | false =>
      have hcon := hgood.contents addr
      unfold step Adapter.nat25DbNetworkInsert at hcon
      simp only at hcon
      rw [hfind] at hcon
      simp only at hcon
      rw [if_neg nofun, h.contents addr, insert_self_some (ha ▸ hmap), ← ha, hmap] at hcon
      have hcl := Option.some.inj hcon
      rcases hne with hm | hm | hm
      · exact nomatch hm
      · exact hm (congrArg Nat25Client.mac hcl)
      · exact hm (congrArg Nat25Client.refreshed hcl)
  · -- another address: its entry is overwritten
    have hfind : s.priv.scdbFindEntry addr = some db := (scdbFindEntry_cons hone).trans (if_neg ha)
    have hcon := hgood.contents
    unfold step Adapter.nat25DbNetworkInsert at hcon
    simp only at hcon
    rw [hfind] at hcon
    simp only at hcon
    have hwritten := writeEntry_nethash (f := fun db => { db with macAddr := mac, ageingTimer := now }) hone
    cases malloc with
    | true =>
      have hself := hcon addr
      have hnone : s.map addr = none := by
        rw [← h.contents, stored_cons hone, if_neg ha]
      rw [stored_cons hwritten, if_neg ha, insert_self hnone, if_pos rfl] at hself
      exact nomatch hself
    | false =>
      have hother := hcon db.networkAddr
      rw [← h.hashed _ db hdb] at hwritten
      rw [stored_cons hwritten, if_pos rfl, insert_other ha, hmap] at hother
      have hcl := Option.some.inj hother
      rcases hne with hm | hm | hm
      · exact nomatch hm
      · exact hm (congrArg Nat25Client.mac hcl).symm
      · exact hm (congrArg Nat25Client.refreshed hcl).symm

/-! ### Lookup -/

theorem lookup_none (h : m.fresh hz now addr = none) (dst : MacAddr) :
    m.lookup hz now addr = m ∧ m.lookupAnswer hz now addr dst = (false, dst) := by
  unfold Nat25Map.lookup Nat25Map.lookupAnswer
  rw [h]; exact ⟨rfl, rfl⟩

theorem Inv.lookup_good (h : s.Inv) (dst : MacAddr)
    (hgood : ¬ (Nat25Call.lookup addr dst now).Collides hz s) : (s.step hz (.lookup addr dst now)).Inv := by
  -- the table finds no entry, and the map no client that is fresh
  have hfind : s.priv.scdbFindEntry addr = none ∧ s.map.fresh hz now addr = none := by
    rcases h.short (nat25NetworkHash addr) with hnil | ⟨db, hdb⟩
    · refine ⟨scdbFindEntry_nil hnil, ?_⟩
      unfold Nat25Map.fresh
      rw [← h.contents, stored_nil hnil]; rfl
    · have hmem : db ∈ s.priv.nethash (nat25NetworkHash addr) := hdb ▸ List.mem_singleton.mpr rfl
      have ha : db.networkAddr = addr := of_not_not fun hne => hgood ⟨db, hmem, Or.inl hne⟩
      have haged : nat25HasExpired hz now db.ageingTimer = true :=
        (Bool.not_eq_false _).mp fun hf => hgood ⟨db, hmem, Or.inr hf⟩
      refine ⟨(scdbFindEntry_cons hdb).trans (if_pos ha), ?_⟩
      unfold Nat25Map.fresh
      rw [← h.contents, stored_cons hdb, if_pos ha]
      refine if_neg ?_
      show ¬ (!nat25HasExpired hz now db.ageingTimer) = true
      rw [haged]; exact nofun
  obtain ⟨hmap, hanswer⟩ := lookup_none hfind.2 dst
  unfold step Adapter.nat25DbNetworkLookupAndReplace
  simp only
  rw [hfind.1, hmap, hanswer]; exact { h with answered := rfl }

theorem Inv.lookup_bad (h : s.Inv) {dst : MacAddr} (hdb : db ∈ s.priv.nethash (nat25NetworkHash addr))
    (hne : db.networkAddr ≠ addr ∨ nat25HasExpired hz now db.ageingTimer = false) :
    ¬ (s.step hz (.lookup addr dst now)).Good := by
  obtain ⟨hone, hmap⟩ := h.map_entry hdb
  intro hgood
  have hans : (s.priv.nat25DbNetworkLookupAndReplace hz now addr dst).1.1 = (s.map.fresh hz now addr).isSome :=
    congrArg Prod.fst hgood.answered
  unfold Adapter.nat25DbNetworkLookupAndReplace at hans
  rw [scdbFindEntry_cons hone] at hans
  unfold Nat25Map.fresh at hans
  by_cases ha : db.networkAddr = addr
  · -- the entry of the address is passed over, though it is fresh
    have hf := hne.resolve_left fun hn => hn ha
    rw [if_pos ha, ← ha, hmap, Option.filter_some, show nat25HasExpired hz now db.client.refreshed = false from hf] at hans
    exact nomatch hans
  · -- the lookup hits an entry of another address
    rw [if_neg ha, ← h.contents, stored_cons hone, if_neg ha] at hans
    simp only at hans
    split at hans <;> exact nomatch hans

/-! ### The passes -/

theorem Inv.sweep (h : s.Inv) {keep : Nat25NetworkDbEntry → Option Nat25NetworkDbEntry}
    (hkeep : ∀ hash, ∀ db ∈ s.priv.nethash hash, keep db = none ∧ m db.networkAddr = none ∨
      keep db = some db ∧ m db.networkAddr = some db.client)
    (hm : ∀ addr, s.map addr = none → m addr = none) : Inv { s with priv := s.priv.sweep keep, map := m } := by
  have hchain : ∀ hash, (s.priv.sweep keep).nethash hash = [] ∧ (∀ db ∈ s.priv.nethash hash, m db.networkAddr = none) ∨
      ∃ db, (s.priv.sweep keep).nethash hash = [db] ∧ s.priv.nethash hash = [db] ∧ m db.networkAddr = some db.client := by
    intro hash
    rw [Adapter.sweep_nethash]
    rcases h.short hash with hnil | ⟨db, hdb⟩
    · rw [hnil]; exact Or.inl ⟨rfl, nofun⟩
    · rw [hdb]
      rcases hkeep hash db (hdb ▸ List.mem_singleton.mpr rfl) with ⟨hk, hmd⟩ | ⟨hk, hmd⟩
      · refine Or.inl ⟨by rw [List.filterMap_cons, hk]; rfl, fun db' hdb' => ?_⟩
        rw [List.mem_singleton.mp hdb']; exact hmd
      · exact Or.inr ⟨db, by rw [List.filterMap_cons, hk]; rfl, rfl, hmd⟩
  have hmem : ∀ hash, ∀ db ∈ (s.priv.sweep keep).nethash hash, db ∈ s.priv.nethash hash := by
    intro hash db hdb
    rcases hchain hash with ⟨hnil, -⟩ | ⟨db', hnew, hwas, -⟩
    · rw [hnil] at hdb; exact nomatch hdb
    · rw [hnew] at hdb
      rw [hwas]; exact hdb
  exact {
    once := fun hash => by
      show (((s.priv.sweep keep).nethash hash).map Nat25NetworkDbEntry.networkAddr).Nodup
      rcases hchain hash with ⟨hnil, -⟩ | ⟨db, hnew, -, -⟩
      · rw [hnil]; exact List.nodup_nil
      · rw [hnew]; exact List.nodup_singleton _
    hashed := fun hash db hdb => h.hashed hash db (hmem hash db hdb)
    contents := fun addr => by
      show (s.priv.sweep keep).stored addr = m addr
      rcases hchain (nat25NetworkHash addr) with ⟨hnil, hnone⟩ | ⟨db, hnew, hwas, hmd⟩
      · rw [stored_nil hnil]
        cases hma : s.map addr with
        | none => exact (hm addr hma).symm
        | some r =>
          obtain ⟨db, hdb, ha, -⟩ := h.map_some hma
          exact (ha ▸ hnone db (hdb ▸ List.mem_singleton.mpr rfl)).symm
      · rw [stored_cons hnew]
        by_cases ha : db.networkAddr = addr
        · rw [if_pos ha, ← ha, hmd]
        · rw [if_neg ha, hm addr]; rw [← h.contents, stored_cons hwas, if_neg ha]
    answered := h.answered
    scdb := fun ptr hptr => by
      obtain ⟨hptr, hkept⟩ := Adapter.foldl_sweepChain_scdbEntry Adapter.hashes s.priv (by decide) hptr
      obtain ⟨hash, db, hdb, hp⟩ := h.scdb ptr hptr
      have hsome := hkept hash (Adapter.mem_hashes hash) db hdb hp
      rcases hkeep hash db hdb with ⟨hk, -⟩ | ⟨hk, -⟩
      · rw [hk] at hsome; exact nomatch hsome
      · refine ⟨hash, db, ?_, hp⟩
        show db ∈ (s.priv.sweep keep).nethash hash
        rw [Adapter.sweep_nethash]; exact List.mem_filterMap.mpr ⟨db, hdb, hk⟩
    short := fun hash => by
      rcases hchain hash with ⟨hnil, -⟩ | ⟨db, hnew, -, -⟩
      · exact Or.inl hnil
      · exact Or.inr ⟨db, hnew⟩
    once_used := fun hash db hdb => h.once_used hash db (hmem hash db hdb)
    old := fun hash db hdb => by
      show db.ptr < (s.priv.sweep keep).next
      rw [Adapter.sweep_next]; exact h.old hash db (hmem hash db hdb)
    ptrs := fun hash hash' db hdb db' hdb' => h.ptrs hash hash' db (hmem hash db hdb) db' (hmem hash' db' hdb') }

theorem Inv.cleanup (h : s.Inv) : (s.step hz .cleanup).Inv := h.sweep (fun _ _ _ => Or.inl ⟨rfl, rfl⟩) fun _ _ => rfl

theorem Inv.expire (h : s.Inv) : (s.step hz (.expire now)).Inv := by
  refine h.sweep (fun hash db hdb => ?_) fun addr hnone => ?_
  · show Adapter.expireEntry hz now db = none ∧ (s.map db.networkAddr).bind _ = none ∨
      Adapter.expireEntry hz now db = some db ∧ (s.map db.networkAddr).bind _ = some db.client
    rw [(h.map_entry hdb).2, Option.bind_some]
    unfold Adapter.expireEntry Nat25Map.expireClient
    rw [show db.client.uses = 1 from h.once_used hash db hdb, h.once_used hash db hdb]
    by_cases haged : nat25HasExpired hz now db.ageingTimer = true
    · exact Or.inl ⟨(if_pos haged).trans (if_pos rfl), (if_pos haged).trans (if_pos rfl)⟩
    · exact Or.inr ⟨if_neg haged, if_neg haged⟩
  · show (s.map addr).bind _ = none
    rw [hnone]; rfl

/-! ### Frames of clients -/

theorem refresh_self (h : m addr = some r) : m.refresh now addr addr = some { r with refreshed := now } := by
  unfold Nat25Map.refresh
  rw [update_self, h]; rfl

theorem refresh_eq_self (h : ∀ r, m addr = some r → r.refreshed = now) : m.refresh now addr = m := by
  unfold Nat25Map.refresh
  refine (congrArg (update m addr) ?_).trans (Function.update_eq_self addr m)
  cases hr : m addr with
  | none => rfl
  | some r =>
    have hnow := h r hr
    subst hnow; rfl

theorem Inv.set_scdb (h : s.Inv) (mac : MacAddr) (scdb : Option ℕ)
    (hlinked : ∀ ptr, scdb = some ptr → ∃ hash, ∃ db ∈ s.priv.nethash hash, db.ptr = ptr) :
    Inv { s with priv := { s.priv with scdbMac := mac, scdbEntry := scdb } } :=
  { h with once := h.once, hashed := h.hashed, contents := h.contents, answered := h.answered, scdb := hlinked }

theorem Inv.entryAt (h : s.Inv) (hdb : db ∈ s.priv.nethash hash) : s.priv.entryAt db.ptr = some db := by
  unfold Adapter.entryAt
  have hmem : db ∈ Adapter.hashes.flatMap s.priv.nethash := List.mem_flatMap.mpr ⟨hash, Adapter.mem_hashes hash, hdb⟩
  obtain ⟨db', hdb'⟩ := Option.isSome_iff_exists.mp
    ((List.find?_isSome (p := fun db' => decide (db'.ptr = db.ptr))).mpr ⟨db, hmem, decide_eq_true rfl⟩)
  have hp := List.find?_some hdb'
  obtain ⟨hash', -, hmem'⟩ := List.mem_flatMap.mp (List.mem_of_find?_eq_some hdb')
  rw [hdb', h.entry_eq hmem' hdb (of_decide_eq_true hp)]

theorem Inv.refresh_scdb (h : s.Inv) (hdb : db ∈ s.priv.nethash hash) : Inv { s with
      priv := s.priv.writeEntry db.ptr fun db => { db with ageingTimer := now }
      map := s.map.refresh now db.networkAddr } := by
  obtain ⟨hone, hmap⟩ := h.map_entry hdb
  have hh := h.hashed hash db hdb
  subst hh
  refine h.put { db with ageingTimer := now } (writeEntry_nethash hone) (fun hash hne => ?_) (fun db' hdb' => ?_)
    (fun hash hne db' hdb' hp => hne (h.ptrs _ _ db' hdb' db hdb hp)) (h.old _ db hdb) (Nat.le_refl _) (h.once_used _ db hdb)
    (refresh_self hmap) (fun addr ha => update_of_ne ha ..) rfl
  · -- no entry of another chain is written
    refine (List.map_congr_left fun db' hdb' => ?_).trans (List.map_id _)
    exact if_neg fun hp => hne (h.ptrs _ _ db' hdb' db hdb hp)
  · rw [hone] at hdb'
    rw [List.mem_singleton.mp hdb']; exact ⟨rfl, rfl⟩

theorem Inv.clientTx_good (h : s.Inv) {sa : MacAddr} {ip : BitVec 8 × BitVec 8 × BitVec 8 × BitVec 8}
    (hgood : ¬ (Nat25Call.clientTx sa ip now).Collides hz s) : (s.step hz (.clientTx sa ip now)).Inv := by
  unfold step Adapter.rtwBrClientTx Adapter.txRefreshes
  simp only
  by_cases hsa : s.priv.scdbMac = sa
  · rw [if_pos hsa, if_pos hsa, Option.map_some, Option.getD_some]
    have hnow : ∀ db ∈ s.priv.nethash (nat25NetworkHash (ipAddr ip)), db.ageingTimer = now := fun db hdb =>
      of_not_not fun hne => hgood ⟨hsa, db, hdb, hne⟩
    have hmap : s.map.refresh now (ipAddr ip) = s.map := refresh_eq_self fun r hr => by
      obtain ⟨db, hdb, -, rfl⟩ := h.map_some hr
      exact hnow db (hdb ▸ List.mem_singleton.mpr rfl)
    rw [hmap]
    cases hfind : s.priv.scdbFindEntry (ipAddr ip) with
    | none => exact h.set_scdb s.priv.scdbMac none nofun
    | some db =>
      -- the entry has the time already
      have hdb : db ∈ s.priv.nethash (nat25NetworkHash (ipAddr ip)) := List.mem_of_find?_eq_some hfind
      have hscdb := h.set_scdb sa (some db.ptr) fun ptr hp => ⟨_, db, hdb, Option.some.inj hp⟩
      simp only
      rw [writeEntry_eq_self fun hash db' hdb' hp => ?_]
      · exact hscdb
      · rw [h.entry_eq hdb' hdb hp, ← hnow db hdb]
  · rw [if_neg hsa, if_neg hsa]
    cases hptr : s.priv.scdbEntry with
    | none =>
      exact h.set_scdb 0 none nofun
    | some ptr =>
      obtain ⟨hash, db, hdb, rfl⟩ := h.scdb ptr hptr
      rw [Option.bind_some, h.entryAt hdb]; exact h.refresh_scdb hdb

theorem Inv.clientTx_bad (h : s.Inv) {sa : MacAddr} {ip : BitVec 8 × BitVec 8 × BitVec 8 × BitVec 8} (hsa : s.priv.scdbMac = sa)
    (hdb : db ∈ s.priv.nethash (nat25NetworkHash (ipAddr ip))) (hne : db.ageingTimer ≠ now) :
    ¬ (s.step hz (.clientTx sa ip now)).Good := by
  obtain ⟨hone, hmap⟩ := h.map_entry hdb
  intro hgood
  have hcon := hgood.contents db.networkAddr
  unfold step Adapter.rtwBrClientTx Adapter.txRefreshes at hcon
  simp only at hcon
  rw [if_pos hsa, if_pos hsa, scdbFindEntry_cons hone, Option.map_some, Option.getD_some] at hcon
  by_cases ha : db.networkAddr = ipAddr ip
  · -- passed over, so that it is not refreshed
    rw [if_pos ha, ← ha, refresh_self hmap] at hcon
    simp only at hcon
    have hsame : s.priv.stored db.networkAddr = some { db.client with refreshed := now } := hcon
    rw [h.contents, hmap] at hsame
    exact hne (congrArg Nat25Client.refreshed (Option.some.inj hsame))
  · -- the entry of another address is refreshed
    rw [if_neg ha] at hcon
    simp only at hcon
    rw [← h.hashed _ db hdb] at hone
    have hwritten : ((Adapter.writeEntry db.ptr (fun db => { db with ageingTimer := now })
        { s.priv with scdbEntry := some db.ptr, scdbMac := sa }).nethash (nat25NetworkHash db.networkAddr)) =
          [{ db with ageingTimer := now }] := writeEntry_nethash (s := { s.priv with scdbEntry := _, scdbMac := _ }) hone
    rw [stored_cons hwritten, if_pos rfl, show s.map.refresh now (ipAddr ip) db.networkAddr = s.map db.networkAddr from
      update_of_ne ha .., hmap] at hcon
    exact hne (congrArg Nat25Client.refreshed (Option.some.inj hcon)).symm

/-! ### Runs -/

variable {call : Nat25Call}

theorem Inv.step_good (h : s.Inv) (hgood : ¬ call.Collides hz s) : (s.step hz call).Inv := by
  cases call with
  | insert mac addr now malloc =>
    rcases h.short (nat25NetworkHash addr) with hnil | ⟨db, hdb⟩
    · exact h.insert_nil mac malloc hnil
    · have hmem : db ∈ s.priv.nethash (nat25NetworkHash addr) := hdb ▸ List.mem_singleton.mpr rfl
      have hmalloc : malloc = false := (Bool.not_eq_true _).mp fun hm => hgood ⟨db, hmem, Or.inl hm⟩
      have hmac : db.macAddr = mac := of_not_not fun hm => hgood ⟨db, hmem, Or.inr (Or.inl hm)⟩
      have hnow : db.ageingTimer = now := of_not_not fun hm => hgood ⟨db, hmem, Or.inr (Or.inr hm)⟩
      subst hmalloc hmac hnow; exact h.insert_same hmem
  | lookup addr dst now => exact h.lookup_good dst hgood
  | expire now => exact h.expire
  | cleanup => exact h.cleanup
  | clientTx sa ip now => exact h.clientTx_good hgood

theorem Inv.step_bad (h : s.Inv) (hbad : call.Collides hz s) : ¬ (s.step hz call).Good := by
  cases call with
  | insert mac addr now malloc =>
    obtain ⟨db, hdb, hne⟩ := hbad
    exact h.insert_bad hdb hne
  | lookup addr dst now =>
    obtain ⟨db, hdb, hne⟩ := hbad
    exact h.lookup_bad hdb hne
  | expire now => exact hbad.elim
  | cleanup => exact hbad.elim
  | clientTx sa ip now =>
    obtain ⟨hsa, db, hdb, hne⟩ := hbad
    exact h.clientTx_bad hsa hdb hne

theorem map_stays_none (hnone : s.map addr = none) (hfresh : ¬ call.Refreshes addr) :
    (s.step hz call).map addr = none := by
  cases call with
  | insert mac addr' now malloc => exact (insert_other fun he => hfresh he.symm).trans hnone
  | lookup addr' dst now =>
    show s.map.lookup hz now addr' addr = none
    unfold Nat25Map.lookup
    cases hf : s.map.fresh hz now addr' with
    | none => exact hnone
    | some r =>
      simp only
      rw [update_of_ne]
      · exact hnone
      · rintro rfl
        unfold Nat25Map.fresh at hf
        rw [hnone] at hf; exact nomatch hf
  | expire now =>
    show (s.map addr).bind _ = none
    rw [hnone]; rfl
  | cleanup => rfl
  | clientTx sa ip now => exact (hfresh trivial).elim

variable {calls : List Nat25Call}

theorem foldl_stays_none (hnone : s.map addr = none) (hfresh : ∀ call ∈ calls, ¬ call.Refreshes addr) :
    (calls.foldl (step hz) s).map addr = none := by
  induction calls generalizing s with
  | nil => exact hnone
  | cons call calls ih =>
    exact ih (map_stays_none hnone (hfresh call List.mem_cons_self)) fun c hc => hfresh c (List.mem_cons_of_mem call hc)

theorem Inv.drained (h : s.Inv)
    (hl : Legal (step hz) (fun s call => ¬ call.Collides hz s) s calls) (hr : s.map addr = some r)
    (hfresh : ∀ call ∈ calls, ¬ call.Refreshes addr)
    (haged : ∀ now ∈ passes calls, nat25HasExpired hz now r.refreshed = true) (hpass : passes calls ≠ []) :
    (calls.foldl (step hz) s).map addr = none := by
  induction calls generalizing s with
  | nil => exact absurd rfl hpass
  | cons call calls ih =>
    have hrest : ∀ c ∈ calls, ¬ c.Refreshes addr := fun c hc => hfresh c (List.mem_cons_of_mem call hc)
    have hinv := h.step_good hl.1
    obtain ⟨db, hdb, rfl, rfl⟩ := h.map_some hr
    have hmem : db ∈ s.priv.nethash (nat25NetworkHash db.networkAddr) := hdb ▸ List.mem_singleton.mpr rfl
    cases call with
    | expire now =>
      refine foldl_stays_none (s := s.step hz (.expire now)) ?_ hrest
      show (s.map db.networkAddr).bind _ = none
      rw [hr, Option.bind_some]
      unfold Nat25Map.expireClient
      rw [if_pos (haged now List.mem_cons_self), show db.client.uses = 1 from h.once_used _ db hmem]
      rfl
    | insert mac addr' now malloc =>
      refine ih hinv hl.2 ?_ hrest haged hpass
      exact (insert_other fun he => hfresh _ List.mem_cons_self he.symm).trans hr
    | lookup addr' dst now =>
      refine ih hinv hl.2 ?_ hrest haged hpass
      -- a lookup that does not collide finds no client
      have hnone : s.map.fresh hz now addr' = none := by
        unfold Nat25Map.fresh
        cases hr' : s.map addr' with
        | none => rfl
        | some r' =>
          obtain ⟨db', hdb', rfl, rfl⟩ := h.map_some hr'
          have hex : nat25HasExpired hz now db'.ageingTimer = true := (Bool.not_eq_false _).mp fun hf =>
            hl.1 ⟨db', hdb' ▸ List.mem_singleton.mpr rfl, Or.inr hf⟩
          refine if_neg ?_
          show ¬ (!nat25HasExpired hz now db'.ageingTimer) = true
          rw [hex]; exact nofun
      show s.map.lookup hz now addr' db.networkAddr = _
      rw [(lookup_none hnone dst).1]; exact hr
    | cleanup => exact foldl_stays_none (s := s.step hz .cleanup) rfl hrest
    | clientTx sa ip now => exact (hfresh _ List.mem_cons_self trivial).elim

theorem Inv.drains (h : s.Inv)
    (hl : Legal (step hz) (fun s call => ¬ call.Collides hz s) s calls) : s.Drains hz calls := by
  intro hash db hdb hfresh haged hn
  have hpass : passes calls ≠ [] := by
    intro hnil
    rw [hnil, h.once_used hash db hdb] at hn; exact absurd hn (by decide)
  have hend : (calls.foldl (step hz) s).Inv := hl.reach.invariant (I := Inv) h fun _ _ hs hc => hs.step_good hc
  exact (hend.contents _).trans (h.drained hl (h.map_entry hdb).2 hfresh haged hpass)

theorem Inv.legal (h : s.Inv) (hgood : ∀ done rest, done ++ rest = calls → (done.foldl (step hz) s).Good) :
    Legal (step hz) (fun s call => ¬ call.Collides hz s) s calls := by
  induction calls generalizing s with
  | nil => trivial
  | cons call calls ih =>
    have hcall : ¬ call.Collides hz s := fun hbad => h.step_bad hbad (hgood [call] calls rfl)
    exact ⟨hcall, ih (h.step_good hcall) fun done rest hd => hgood (call :: done) rest (congrArg _ hd)⟩

end Nat25Run

/-- **The NAT2.5 table as a map with ageing.**  For each part of a run: the table is the map, and what has aged drains, exactly
when no call collides with an entry. -/
theorem nat25_map_iff (hz : Jiffies) (calls : List Nat25Call) :
    (∀ done rest, done ++ rest = calls → (done.foldl (Nat25Run.step hz) .start).Good ∧
        (done.foldl (Nat25Run.step hz) .start).Drains hz rest) ↔
      Legal (Nat25Run.step hz) (fun s call => ¬ call.Collides hz s) .start calls := by
  constructor
  · exact fun h => Nat25Run.Inv.start.legal fun done rest hd => (h done rest hd).1
  · rintro h done rest rfl
    obtain ⟨hdone, hrest⟩ := legal_append.mp h
    have hinv : (done.foldl (Nat25Run.step hz) .start).Inv :=
      hdone.reach.invariant (I := Nat25Run.Inv) .start fun _ _ hs hc => hs.step_good hc
    exact ⟨hinv.toGood, hinv.drains hrest⟩

/-- A client that comes in from the bridge, and a frame for it. -/
def oneClient : List Nat25Call :=
  [.insert 0x020000000001 (ipAddr (192, 168, 1, 2)) 0 true, .lookup (ipAddr (192, 168, 1, 2)) 0x020000000099 0]

/-- The lookup passes its entry over. -/
theorem lookup_misses_client :
    ¬ ∀ done rest, done ++ rest = oneClient → (done.foldl (Nat25Run.step 250) .start).Good ∧
      (done.foldl (Nat25Run.step 250) .start).Drains 250 rest := by
  intro h
  have hanswered := (h oneClient [] rfl).1.answered
  revert hanswered
  decide

end Rtl8852cu.Br
