import Rtl8852cu.Fwdl.Parser
import Rtl8852cu.H2c.Packet
import Rtl8852cu.Lib.Slice

/-!
# The download of a firmware section

`phl/hal_g6/mac/mac_ax/fwdl.c`, `__sections_download`: a section in packets of at most `FWDL_SECTION_PER_PKT_LEN` bytes,
each in an H2C buffer of its own, behind a descriptor. `__sections_push` takes the room of a command header away from the
front of the buffer, so that 24 bytes are left there. The long descriptor, which keeps a transfer off the multiples of
512 bytes on USB, has 32.
-/

namespace Rtl8852cu.Fwdl

open Lib H2c

def sectionPushLen : ℕ := 8

/-- `__sections_push`; the buffer is empty. -/
def sectionsPush (h2cb : H2cb) : H2cb :=
  { h2cb with head := h2cb.head - sectionPushLen, room := h2cb.room + sectionPushLen }

def rxdSRpktTypeFwdl : ℕ := 14

/-- `txdes_proc_h2c_fwdl_8852c` for a packet of a section. -/
def fwdlTxdesc (pktlen len : ℕ) : List UInt8 :=
  Lib.le32 (setWord pktlen 0 0x3fff ||| setWord rxdSRpktTypeFwdl 24 0xf ||| (if len = rxdLongLen then 2 ^ 31 else 0)) ++
    List.replicate (len - 4) 0

def sectionsBuildTxd (usb : Bool) (h2cb : H2cb) : Except MacRet H2cb :=
  let txdLen := txdescLen usb h2cb.data.length
  match h2cbPush h2cb (fwdlTxdesc h2cb.data.length txdLen) with
  | none => .error .nptr
  | some h2cb => .ok h2cb

/-- The interface, whether `h2cb_alloc` has a buffer for the packet with a number, and whether `PLTFM_TX` takes it. -/
structure DownloadEnv where
  usb : Bool
  alloc : ℕ → Bool
  tx : ℕ → Bool

/-- The packets that `PLTFM_TX` took, and what was read of the section. -/
structure Sent where
  packets : List (List UInt8)
  reads : List Access

/-- The loop of `__sections_download`; `none` where the fuel does not do. -/
def sectionsDownloadLoop (env : DownloadEnv) (m : Mem) : ℕ → Sent → ℕ → ℕ → Option (MacRet × Sent)
  | 0, _, _, _ => none
  | fuel + 1, s, section_, residueLen =>
    if residueLen = 0 then some (.success, s)
    else
      let pktLen := if fwdlSectionPerPktLen ≤ residueLen then fwdlSectionPerPktLen else residueLen
      if env.alloc s.packets.length = false then some (.nptr, s)
      else
        match h2cbPut (sectionsPush (H2cb.reset .longData)) (slice m section_ pktLen) with
        | none => some (.noBuf, s)
        | some h2cb =>
          let s := { s with reads := s.reads ++ [(section_, pktLen)] }
          match sectionsBuildTxd env.usb h2cb with
          | .error ret => some (ret, s)
          | .ok h2cb =>
            if env.tx s.packets.length = false then some (.txFail, s)
            else
              sectionsDownloadLoop env m fuel { s with packets := s.packets ++ [h2cb.data] } (section_ + pktLen)
                (residueLen - pktLen)

/-- `__sections_download` of the section of `len` bytes at the start of memory. -/
def sectionsDownload (env : DownloadEnv) (m : Mem) (len fuel : ℕ) : Option (MacRet × Sent) :=
  sectionsDownloadLoop env m fuel ⟨[], []⟩ 0 len

/-! ### One packet -/

/-- A packet with these bytes of a section. -/
def packet (usb : Bool) (bytes : List UInt8) : List UInt8 :=
  fwdlTxdesc bytes.length (txdescLen usb bytes.length) ++ bytes

/-- The last packet of the section does with the short descriptor. -/
def LastFits (usb : Bool) (len : ℕ) : Prop :=
  ¬ (usb = true ∧ (len % fwdlSectionPerPktLen + rxdShortLen) % 0x200 = 0)

instance (usb : Bool) (len : ℕ) : Decidable (LastFits usb len) := inferInstanceAs (Decidable (¬ _))

/-- The number of bytes in the packet that is next. -/
def pktLenOf (residueLen : ℕ) : ℕ :=
  if fwdlSectionPerPktLen ≤ residueLen then fwdlSectionPerPktLen else residueLen

theorem pktLenOf_le (n : ℕ) : pktLenOf n ≤ n ∧ pktLenOf n ≤ fwdlSectionPerPktLen := by
  unfold pktLenOf
  split <;> omega

variable {n : ℕ}

theorem pktLenOf_pos (h : n ≠ 0) : 0 < pktLenOf n := by
  unfold pktLenOf fwdlSectionPerPktLen
  split <;> omega

theorem fits_step (usb : Bool) (n : ℕ) :
    LastFits usb n ↔ ¬ 24 < txdescLen usb (pktLenOf n) ∧ LastFits usb (n - pktLenOf n) := by
  unfold LastFits txdescLen pktLenOf
  by_cases hfull : fwdlSectionPerPktLen ≤ n
  · -- a full packet is none that needs the long descriptor
    have hmod : (n - fwdlSectionPerPktLen) % fwdlSectionPerPktLen = n % fwdlSectionPerPktLen :=
      (Nat.mod_eq_sub_mod hfull).symm
    rw [if_pos hfull, if_neg fun hc => absurd hc.2 (by decide), hmod]
    exact ⟨fun h => ⟨by decide, h⟩, fun h => h.2⟩
  · have hmod : n % fwdlSectionPerPktLen = n := Nat.mod_eq_of_lt (by omega)
    rw [if_neg hfull, hmod, Nat.sub_self]
    by_cases hlong : usb = true ∧ (n + rxdShortLen) % 0x200 = 0
    · rw [if_pos hlong]; exact ⟨fun h => absurd hlong h, fun h => absurd (by decide) h.1⟩
    · rw [if_neg hlong]
      exact ⟨fun _ => ⟨by decide, fun hc => absurd hc.2 (by decide)⟩, fun _ => hlong⟩

theorem length_fwdlTxdesc {pktlen len : ℕ} (h : 4 ≤ len) : (fwdlTxdesc pktlen len).length = len := by
  unfold fwdlTxdesc
  rw [List.length_append, Lib.length_le32, List.length_replicate]; omega

theorem sectionsBuildTxd_eq (usb : Bool) (h2cb : H2cb) : sectionsBuildTxd usb h2cb =
      if h2cb.head < txdescLen usb h2cb.data.length then .error .nptr
      else .ok { h2cb with
        head := h2cb.head - txdescLen usb h2cb.data.length
        data := packet usb h2cb.data } := by
  unfold sectionsBuildTxd h2cbPush packet
  simp only
  rw [length_fwdlTxdesc (txdescLen_pos _ _)]
  by_cases hlt : h2cb.head < txdescLen usb h2cb.data.length
  · rw [if_pos hlt, if_pos hlt]
  · rw [if_neg hlt, if_neg hlt]

/-! ### The loop -/

variable {env : DownloadEnv} {m : Mem}

def Sent.add (env : DownloadEnv) (m : Mem) (s : Sent) (a n : ℕ) : Sent :=
  ⟨s.packets ++ [packet env.usb (slice m a n)], s.reads ++ [(a, n)]⟩

theorem sectionsDownloadLoop_succ (s : Sent) (a fuel : ℕ) (hn : n ≠ 0) : sectionsDownloadLoop env m (fuel + 1) s a n =
      if env.alloc s.packets.length = false then some (.nptr, s)
      else if 24 < txdescLen env.usb (pktLenOf n) then some (.nptr, { s with reads := s.reads ++ [(a, pktLenOf n)] })
      else if env.tx s.packets.length = false then some (.txFail, { s with reads := s.reads ++ [(a, pktLenOf n)] })
      else sectionsDownloadLoop env m fuel (s.add env m a (pktLenOf n)) (a + pktLenOf n) (n - pktLenOf n) := by
  have hlen : (slice m a (pktLenOf n)).length = pktLenOf n := length_slice
  have hroom : (slice m a (pktLenOf n)).length ≤ (sectionsPush (H2cb.reset .longData)).room := by
    rw [hlen]; exact Nat.le_trans (pktLenOf_le n).2 (by decide)
  have hput := h2cbPut_some hroom
  rw [sectionsDownloadLoop, if_neg hn]
  simp only
  rw [← pktLenOf, hput]
  simp only
  rw [sectionsBuildTxd_eq]
  by_cases halloc : env.alloc s.packets.length = false
  · rw [if_pos halloc, if_pos halloc]
  rw [if_neg halloc, if_neg halloc]
  have hdata : (sectionsPush (H2cb.reset .longData)).data ++ slice m a (pktLenOf n) = slice m a (pktLenOf n) := rfl
  have hhead : (sectionsPush (H2cb.reset .longData)).head = 24 := rfl
  simp only [hdata, hhead, hlen]
  by_cases hlong : 24 < txdescLen env.usb (pktLenOf n)
  · rw [if_pos hlong, if_pos hlong]
  rw [if_neg hlong, if_neg hlong]; rfl

theorem sectionsDownloadLoop_isSome (env : DownloadEnv) (m : Mem) (fuel : ℕ) (s : Sent) (a n : ℕ) (h : n < fuel) :
    (sectionsDownloadLoop env m fuel s a n).isSome = true := by
  induction fuel generalizing s a n with
  | zero => omega
  | succ fuel ih =>
    by_cases hn : n = 0
    · rw [sectionsDownloadLoop, if_pos hn]; rfl
    rw [sectionsDownloadLoop_succ s a fuel hn]
    have hpos := pktLenOf_pos hn
    have hle := (pktLenOf_le n).1
    split_ifs
    · rfl
    · rfl
    · rfl
    · exact ih _ _ _ (by omega)

/-- What a call has sent and read when it returns, of the `n` bytes from `a` on: the first `k` of them, in pieces. -/
structure SentSome (env : DownloadEnv) (m : Mem) (s : Sent) (a n : ℕ) (ret : MacRet) (s' : Sent)
    (chunks : List (List UInt8)) (k : ℕ) : Prop where
  packets : s'.packets = s.packets ++ chunks.map (packet env.usb)
  size : ∀ c ∈ chunks, 0 < c.length ∧ c.length ≤ fwdlSectionPerPktLen
  bytes : chunks.flatten = slice m a k
  le : k ≤ n
  all : ret = .success → k = n
  reads : ∀ r ∈ s'.reads, r ∈ s.reads ∨ a ≤ r.1 ∧ r.1 + r.2 ≤ a + n

variable {s s' : Sent} {a : ℕ} {ret : MacRet}

theorem SentSome.stop (hret : ret = .success → n = 0)
    (hp : s'.packets = s.packets) (hr : s'.reads = s.reads ∨ s'.reads = s.reads ++ [(a, pktLenOf n)]) :
    SentSome env m s a n ret s' [] 0 where
  packets := by rw [hp, List.map_nil, List.append_nil]
  size := nofun
  bytes := rfl
  le := Nat.zero_le n
  all h := (hret h).symm
  reads r hmem := by
    rcases hr with hr | hr
    · exact .inl (hr ▸ hmem)
    · rw [hr, List.mem_append, List.mem_singleton] at hmem
      rcases hmem with hmem | rfl
      · exact .inl hmem
      · exact .inr ⟨Nat.le_refl a, Nat.add_le_add_left (pktLenOf_le n).1 a⟩

theorem SentSome.step {k : ℕ} {chunks : List (List UInt8)} (hn : n ≠ 0)
    (h : SentSome env m (s.add env m a (pktLenOf n)) (a + pktLenOf n) (n - pktLenOf n) ret s' chunks k) :
    SentSome env m s a n ret s' (slice m a (pktLenOf n) :: chunks) (pktLenOf n + k) where
  packets := by
    rw [h.packets, Sent.add, List.map_cons, List.append_assoc, List.singleton_append]
  size c hc := by
    rcases List.mem_cons.mp hc with rfl | hc
    · rw [length_slice]; exact ⟨pktLenOf_pos hn, (pktLenOf_le n).2⟩
    · exact h.size c hc
  bytes := by rw [List.flatten_cons, h.bytes, slice_add]
  le := by
    have := h.le
    have := (pktLenOf_le n).1
    omega
  all hret := by
    have := h.all hret
    have := (pktLenOf_le n).1
    omega
  reads r hmem := by
    have hle := (pktLenOf_le n).1
    rcases h.reads r hmem with hold | ⟨hlo, hhi⟩
    · rw [Sent.add, List.mem_append, List.mem_singleton] at hold
      rcases hold with hold | rfl
      · exact .inl hold
      · exact .inr ⟨Nat.le_refl a, by simp only; omega⟩
    · exact .inr ⟨by omega, by omega⟩

theorem sectionsDownloadLoop_spec {fuel : ℕ}
    (h : sectionsDownloadLoop env m fuel s a n = some (ret, s')) : ∃ chunks k, SentSome env m s a n ret s' chunks k := by
  induction fuel generalizing s a n with
  | zero => exact absurd h nofun
  | succ fuel ih =>
    by_cases hn : n = 0
    · rw [sectionsDownloadLoop, if_pos hn] at h
      cases h
      exact ⟨[], 0, .stop (fun _ => hn) rfl (.inl rfl)⟩
    rw [sectionsDownloadLoop_succ s a fuel hn] at h
    split_ifs at h
    · cases h; exact ⟨[], 0, .stop nofun rfl (.inl rfl)⟩
    · cases h; exact ⟨[], 0, .stop nofun rfl (.inr rfl)⟩
    · cases h; exact ⟨[], 0, .stop nofun rfl (.inr rfl)⟩
    · obtain ⟨chunks, k, hsome⟩ := ih h; exact ⟨_, _, hsome.step hn⟩

theorem sectionsDownloadLoop_success_iff (halloc : ∀ k, env.alloc k = true) (htx : ∀ k, env.tx k = true) {fuel : ℕ}
    (h : sectionsDownloadLoop env m fuel s a n = some (ret, s')) :
    ret = .success ↔ LastFits env.usb n := by
  induction fuel generalizing s a n with
  | zero => exact absurd h nofun
  | succ fuel ih =>
    by_cases hn : n = 0
    · rw [sectionsDownloadLoop, if_pos hn] at h
      cases h
      subst hn; exact ⟨fun _ hc => absurd hc.2 (by decide), fun _ => rfl⟩
    rw [sectionsDownloadLoop_succ s a fuel hn, halloc, htx, if_neg Bool.noConfusion] at h
    rw [fits_step env.usb n]
    by_cases hlong : 24 < txdescLen env.usb (pktLenOf n)
    · rw [if_pos hlong] at h
      cases h
      exact ⟨nofun, fun hc => absurd hlong hc.1⟩
    · rw [if_neg hlong, if_neg Bool.noConfusion] at h
      exact (ih h).trans ⟨fun hf => ⟨hlong, hf⟩, fun hc => hc.2⟩

/-! ### The download -/

/-- Every download of the section of `len` bytes ends, reads nothing behind them, and has sent their first ones in
order in packets of at most `FWDL_SECTION_PER_PKT_LEN`, all of them where it returns `MACSUCCESS`; and it does where
there are buffers and every transfer is taken. -/
def SectionSent (usb : Bool) (m : Mem) (len : ℕ) : Prop :=
  ∀ alloc tx, ∃ fuel ret s, sectionsDownload ⟨usb, alloc, tx⟩ m len fuel = some (ret, s) ∧
    (∀ r ∈ s.reads, r.1 + r.2 ≤ len) ∧
    (∃ (chunks : List (List UInt8)) (k : ℕ), s.packets = chunks.map (packet usb) ∧
      (∀ c ∈ chunks, 0 < c.length ∧ c.length ≤ fwdlSectionPerPktLen) ∧
      chunks.flatten = slice m 0 k ∧ k ≤ len ∧ (ret = .success → k = len)) ∧
    ((∀ k, alloc k = true) → (∀ k, tx k = true) → ret = .success)

theorem sectionSent_iff (usb : Bool) (m : Mem) (len : ℕ) : SectionSent usb m len ↔ LastFits usb len := by
  constructor
  · intro h
    obtain ⟨fuel, ret, s, hrun, -, -, hok⟩ := h (fun _ => true) (fun _ => true)
    exact (sectionsDownloadLoop_success_iff (fun _ => rfl) (fun _ => rfl) hrun).mp (hok (fun _ => rfl) fun _ => rfl)
  · intro hfits alloc tx
    obtain ⟨⟨ret, s⟩, hrun⟩ := Option.isSome_iff_exists.mp
      (sectionsDownloadLoop_isSome ⟨usb, alloc, tx⟩ m (len + 1) ⟨[], []⟩ 0 len (Nat.lt_succ_self len))
    obtain ⟨chunks, k, hsome⟩ := sectionsDownloadLoop_spec hrun
    refine ⟨len + 1, ret, s, hrun, fun r hr => ?_, ⟨chunks, k, ?_, hsome.size, hsome.bytes, hsome.le, hsome.all⟩, ?_⟩
    · rcases hsome.reads r hr with hr | hr
      · cases hr
      · omega
    · rw [hsome.packets, List.nil_append]
    · exact fun halloc htx => (sectionsDownloadLoop_success_iff halloc htx hrun).mpr hfits

end Rtl8852cu.Fwdl
