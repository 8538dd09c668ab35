import Mathlib.Algebra.Ring.Int.Defs
import Mathlib.Algebra.Ring.Nat
import Mathlib.Data.List.Basic
import Mathlib.Logic.Function.Basic

/-!
# The NAT2.5 table

`core/rtw_br_ext.c`: with one MAC address on the air for all clients behind a bridge, the table gives for a network address
the MAC address of the client.  An entry is in the chain `nethash[hash]` of its address; `nat25_db_expire` unlinks those
that were not refreshed within `NAT25_AGEING_TIME`.  `scdb_entry` points to the entry of the client that sends the most.

A chain is a list, head first, and an entry has the pointer `rtw_malloc` gave as its number.
-/

namespace Rtl8852cu.Br

open Function (update update_of_ne)

/-- A MAC address, `ETH_ALEN` bytes. -/
abbrev MacAddr := BitVec 48

abbrev Jiffies := BitVec 64

/-- A network address: a byte for its type, then `MAX_NETWORK_ADDR_LEN - 1` more. -/
def NetworkAddr := { bytes : List (BitVec 8) // bytes.length = 17 }
  deriving DecidableEq

def nat25GenerateIpv4NetworkAddr (a b c d : BitVec 8) : NetworkAddr :=
  ⟨[1, 0, 0, 0, 0, 0, 0, a, b, c, d, 0, 0, 0, 0, 0, 0], rfl⟩

/-- The bytes from `i` on, `n` of them, combined. -/
def NetworkAddr.xor (addr : NetworkAddr) (i n : ℕ) : BitVec 8 :=
  ((addr.1.drop i).take n).foldl (· ^^^ ·) 0

/-- `__nat25_network_hash`: the types are `NAT25_IPV4`, `NAT25_IPX`, `NAT25_APPLE`, `NAT25_PPPOE` and `NAT25_IPV6`. -/
def nat25NetworkHash (addr : NetworkAddr) : BitVec 4 :=
  let x :=
    if addr.1.headD 0 = 1 then addr.xor 7 4
    else if addr.1.headD 0 = 3 then addr.xor 1 10
    else if addr.1.headD 0 = 4 then addr.xor 1 3
    else if addr.1.headD 0 = 5 then addr.xor 0 9
    else if addr.1.headD 0 = 2 then addr.xor 1 16
    else addr.xor 0 17
  x.setWidth 4

/-- `struct nat25_network_db_entry`, by its pointer. -/
structure Nat25NetworkDbEntry where
  ptr : ℕ
  networkAddr : NetworkAddr
  macAddr : MacAddr
  useCount : BitVec 32
  ageingTimer : Jiffies
  deriving DecidableEq

/-- What the functions use of `_adapter`; `next` is the pointer that `rtw_malloc` gives next. -/
structure Adapter where
  nethash : BitVec 4 → List Nat25NetworkDbEntry
  scdbMac : MacAddr
  scdbEntry : Option ℕ
  next : ℕ

/-- `_rtw_memcmp` of two network addresses: `TRUE` when they are equal. -/
def rtwMemcmp (a b : NetworkAddr) : Bool := decide (a = b)

/-- `__nat25_timeout`; `hz` are the ticks of a second. -/
def nat25Timeout (hz now : Jiffies) : Jiffies := now - 300 * hz

/-- `__nat25_has_expired`, with `time_before_eq` as the kernel has it. -/
def nat25HasExpired (hz now ageingTimer : Jiffies) : Bool := decide (0 ≤ (nat25Timeout hz now - ageingTimer).toInt)

namespace Adapter

variable (hz now : Jiffies) (addr : NetworkAddr)

/-- `scdb_findEntry`; the loop is also that of the lookup and of the insert. -/
def scdbFindEntry (s : Adapter) : Option Nat25NetworkDbEntry :=
  (s.nethash (nat25NetworkHash addr)).find? fun db => !rtwMemcmp db.networkAddr addr

/-- A write to the entry at `ptr`. -/
def writeEntry (ptr : ℕ) (f : Nat25NetworkDbEntry → Nat25NetworkDbEntry) (s : Adapter) : Adapter :=
  { s with nethash := fun hash => (s.nethash hash).map fun db => if db.ptr = ptr then f db else db }

def networkHashLink (ent : Nat25NetworkDbEntry) (hash : BitVec 4) (s : Adapter) : Adapter :=
  { s with nethash := update s.nethash hash (ent :: s.nethash hash) }

/-- `__nat25_db_network_lookup_and_replace`: the answer and the destination of the frame. -/
def nat25DbNetworkLookupAndReplace (dst : MacAddr) (s : Adapter) : (Bool × MacAddr) × Adapter :=
  match s.scdbFindEntry addr with
  | none => ((false, dst), s)
  | some db =>
    if nat25HasExpired hz now db.ageingTimer then ((true, dst), s)
    else ((true, db.macAddr), s.writeEntry db.ptr fun db => { db with useCount := db.useCount + 1 })

/-- `__nat25_db_network_insert`; `malloc` is whether there is memory. -/
def nat25DbNetworkInsert (macAddr : MacAddr) (malloc : Bool) (s : Adapter) : Adapter :=
  match s.scdbFindEntry addr with
  | some db => s.writeEntry db.ptr fun db => { db with macAddr := macAddr, ageingTimer := now }
  | none =>
    if malloc then
      networkHashLink ⟨s.next, addr, macAddr, 1, now⟩ (nat25NetworkHash addr) { s with next := s.next + 1 }
    else s

/-- A pass over one chain: `keep` is the entry as it stays, or none where it is unlinked and freed. -/
def sweepChain (keep : Nat25NetworkDbEntry → Option Nat25NetworkDbEntry) (hash : BitVec 4) (s : Adapter) : Adapter :=
  let freed := (s.nethash hash).any fun f => decide (s.scdbEntry = some f.ptr) && (keep f).isNone
  { s with
    nethash := update s.nethash hash ((s.nethash hash).filterMap keep)
    scdbMac := if freed then 0 else s.scdbMac
    scdbEntry := if freed then none else s.scdbEntry }

/-- The indices of `nethash`. -/
def hashes : List (BitVec 4) := (List.range 16).map (BitVec.ofNat 4)

/-- The passes over the chains of `nat25_db_cleanup` and `nat25_db_expire`. -/
def sweep (keep : Nat25NetworkDbEntry → Option Nat25NetworkDbEntry) (s : Adapter) : Adapter :=
  hashes.foldl (fun s hash => s.sweepChain keep hash) s

def nat25DbCleanup (s : Adapter) : Adapter := s.sweep fun _ => none

/-- What `nat25_db_expire` does with an entry. -/
def expireEntry (f : Nat25NetworkDbEntry) : Option Nat25NetworkDbEntry :=
  if nat25HasExpired hz now f.ageingTimer then
    if f.useCount - 1 = 0 then none else some { f with useCount := f.useCount - 1 }
  else some f

def nat25DbExpire (s : Adapter) : Adapter := s.sweep (expireEntry hz now)

/-- What `rtw_br_client_tx` does with the table for an IP frame from `sa` with the source address `addr`. -/
def rtwBrClientTx (sa : MacAddr) (s : Adapter) : Adapter :=
  if s.scdbMac = sa then
    match s.scdbFindEntry addr with
    | none => { s with scdbEntry := none }
    | some db =>
      { s with scdbEntry := some db.ptr, scdbMac := sa }.writeEntry db.ptr fun db => { db with ageingTimer := now }
  else
    match s.scdbEntry with
    | some ptr => s.writeEntry ptr fun db => { db with ageingTimer := now }
    | none => { s with scdbMac := 0 }

/-! ### The passes over the chains -/

variable {keep : Nat25NetworkDbEntry → Option Nat25NetworkDbEntry} {s : Adapter}

theorem mem_hashes (hash : BitVec 4) : hash ∈ hashes := by
  revert hash
  decide

theorem foldl_sweepChain (l : List (BitVec 4)) (hl : l.Nodup) (s : Adapter) (hash : BitVec 4) :
    (l.foldl (fun s hash => s.sweepChain keep hash) s).nethash hash =
      if hash ∈ l then (s.nethash hash).filterMap keep else s.nethash hash := by
  induction l generalizing s with
  | nil => exact (if_neg List.not_mem_nil).symm
  | cons h l ih =>
    rw [List.foldl_cons, ih (List.nodup_cons.mp hl).2]
    show (if hash ∈ l then (update s.nethash h _ hash).filterMap keep else update s.nethash h _ hash) = _
    by_cases hh : hash = h
    · subst hh
      rw [if_neg (List.nodup_cons.mp hl).1, if_pos List.mem_cons_self, Function.update_self]
    · rw [update_of_ne hh]
      exact if_congr ⟨List.mem_cons_of_mem h, fun hm => (List.mem_cons.mp hm).resolve_left hh⟩ rfl rfl

theorem sweep_nethash (s : Adapter) (hash : BitVec 4) : (s.sweep keep).nethash hash = (s.nethash hash).filterMap keep :=
  (foldl_sweepChain hashes (by decide) s hash).trans (if_pos (mem_hashes hash))

theorem sweep_next (s : Adapter) : (s.sweep keep).next = s.next :=
  List.foldlRecOn hashes _ (motive := fun s' : Adapter => s'.next = s.next) rfl fun _ h _ _ => h

theorem foldl_sweepChain_scdbEntry (l : List (BitVec 4)) (s : Adapter) {ptr : ℕ} (hl : l.Nodup)
    (h : (l.foldl (fun s hash => s.sweepChain keep hash) s).scdbEntry = some ptr) :
    s.scdbEntry = some ptr ∧ ∀ hash ∈ l, ∀ f ∈ s.nethash hash, f.ptr = ptr → (keep f).isSome := by
  induction l generalizing s with
  | nil => exact ⟨h, nofun⟩
  | cons hash l ih =>
    obtain ⟨hnot, hl⟩ := List.nodup_cons.mp hl
    obtain ⟨hptr, hkeep⟩ := ih _ hl h
    unfold sweepChain at hptr
    simp only at hptr
    split_ifs at hptr with hfreed
    refine ⟨hptr, fun hash' hm f hf hfp => ?_⟩
    rcases List.mem_cons.mp hm with rfl | hm
    · have hall := List.any_eq_false.mp (Bool.not_eq_true _ ▸ hfreed) f hf
      rw [hptr, hfp, decide_eq_true rfl, Bool.true_and, Bool.not_eq_true, Option.isNone_eq_false_iff] at hall
      exact hall
    · have hne : hash' ≠ hash := fun he => hnot (he ▸ hm)
      refine hkeep hash' hm f ?_ hfp
      show f ∈ update s.nethash hash _ hash'
      rw [update_of_ne hne]; exact hf

end Adapter

end Rtl8852cu.Br
