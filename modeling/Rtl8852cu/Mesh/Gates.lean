import Rtl8852cu.Mesh.PathTbl
import Rtl8852cu.Lib.Peak

/-!
# The known gates

What `rtw_mesh_path_add_gate` and `rtw_mesh_gate_del` keep: the paths linked in `known_gates` are
those with their `is_gate` flag set (`GateBook.flagged`), and `num_gates` and `max_addr_gate` are
the number and the peak of the list (`GateBook.peaked`).  The loop over the gates that are left finds
their peak (`largestGate_none`).
-/

namespace Rtl8852cu.Mesh

open Lib

namespace MeshInfo

variable {adapter : Adapter} {now : Systime} {s : MeshInfo} {p q : ℕ} {a : MeshPath} {f : MeshPath → MeshPath}

/-! ### Writes to a path -/

theorem path_setPath (ha : s.path q = some a) : (s.setPath p f).path q = some (if q = p then f a else a) :=
  Heap.modify_cell_some ha

theorem path_setPath_self (ha : s.path p = some a) : (s.setPath p f).path p = some (f a) := by
  rw [path_setPath ha, if_pos rfl]

theorem path_setPath_ne (hq : q ≠ p) : (s.setPath p f).path q = s.path q := Heap.modify_cell_ne hq

theorem of_path_setPath {b : MeshPath} (hb : (s.setPath p f).path q = some b) :
    ∃ a, s.path q = some a ∧ b = if q = p then f a else a :=
  Heap.of_modify_cell hb

def dstVal (s : MeshInfo) (p : ℕ) : ℕ := ((s.path p).map (·.dst.val)).getD 0

theorem dstVal_of (ha : s.path p = some a) : s.dstVal p = a.dst.val := by
  unfold dstVal
  rw [ha]; rfl

theorem dstVal_setPath (hf : ∀ a, (f a).dst = a.dst) : (s.setPath p f).dstVal q = s.dstVal q := by
  unfold dstVal
  by_cases hq : q = p
  · subst hq
    cases ha : s.path q with
    | none =>
      have hnone : (s.setPath q f).path q = none := by
        show (s.heap.modify q f).cell q = none
        rw [Heap.modify_cell_self, show s.heap.cell q = none from ha]; rfl
      rw [hnone]
    | some a =>
      rw [path_setPath_self ha]
      show (f a).dst.val = a.dst.val
      rw [hf]
  · rw [path_setPath_ne hq]

/-! ### The loop over the gates -/

theorem largestGate_some {gates : List ℕ} {m : ℕ} (hlive : ∀ p ∈ m :: gates, (s.path p).isSome) :
    ∃ m', s.largestGate gates (some m) = some (some m') ∧ IsPeak s.dstVal (m :: gates) m' := by
  induction gates generalizing m with
  | nil => exact ⟨m, rfl, List.mem_singleton_self m, fun y hy => List.mem_singleton.mp hy ▸ le_rfl⟩
  | cons gate gates ih =>
    obtain ⟨b, hb⟩ := Option.isSome_iff_exists.mp (hlive m List.mem_cons_self)
    obtain ⟨a, ha⟩ := Option.isSome_iff_exists.mp (hlive gate (List.mem_cons_of_mem m List.mem_cons_self))
    set n := if a.dst.isLarger b.dst then gate else m with hn
    have hmem : n = gate ∨ n = m := by
      rw [hn]
      split_ifs
      · exact Or.inl rfl
      · exact Or.inr rfl
    have hle : s.dstVal gate ≤ s.dstVal n ∧ s.dstVal m ≤ s.dstVal n := by
      have hlarger : a.dst.isLarger b.dst = true ↔ s.dstVal m < s.dstVal gate := by
        rw [MacAddr.isLarger_iff, dstVal_of ha, dstVal_of hb]
      rw [hn]
      split_ifs with h
      · exact ⟨le_rfl, (hlarger.mp h).le⟩
      · exact ⟨not_lt.mp fun hlt => h (hlarger.mpr hlt), le_rfl⟩
    have hlive' : ∀ p ∈ n :: gates, (s.path p).isSome := by
      refine List.forall_mem_cons.mpr ⟨?_, fun p hp => hlive p (List.mem_cons_of_mem m (List.mem_cons_of_mem gate hp))⟩
      rcases hmem with h | h
      · rw [h, ha]; rfl
      · rw [h, hb]; rfl
    obtain ⟨m', hm', hmem', hpeak⟩ := ih hlive'
    refine ⟨m', ?_, ?_, ?_⟩
    · rw [largestGate, ha, hb]; exact hm'
    · rcases List.mem_cons.mp hmem' with h | h
      · rcases hmem with hg | hg
        · rw [h, hg]; exact List.mem_cons_of_mem m List.mem_cons_self
        · rw [h, hg]; exact List.mem_cons_self
      · exact List.mem_cons_of_mem m (List.mem_cons_of_mem gate h)
    · have hpeak' := List.forall_mem_cons.mp hpeak
      exact List.forall_mem_cons.mpr ⟨hle.2.trans hpeak'.1, List.forall_mem_cons.mpr ⟨hle.1.trans hpeak'.1, hpeak'.2⟩⟩

theorem largestGate_none {gates : List ℕ} (hne : gates ≠ []) (hlive : ∀ p ∈ gates, (s.path p).isSome) :
    ∃ m, s.largestGate gates none = some (some m) ∧ IsPeak s.dstVal gates m := by
  cases gates with
  | nil => exact absurd rfl hne
  | cons gate gates =>
    obtain ⟨m, hm, hpeak⟩ := largestGate_some hlive
    obtain ⟨a, ha⟩ := Option.isSome_iff_exists.mp (hlive gate List.mem_cons_self)
    refine ⟨m, ?_, hpeak⟩
    rw [largestGate, ha]; exact hm

/-! ### The book of the gates -/

/-- The linked paths are those that are flagged, and their number and peak are recorded. -/
structure GateBook (s : MeshInfo) : Prop where
  flagged : ∀ p, p ∈ s.knownGates ↔ ∃ a, s.path p = some a ∧ a.isGate = true
  peaked : Peaked s.dstVal s.knownGates s.numGates s.maxAddrGate

theorem GateBook.live (h : s.GateBook) (hp : p ∈ s.knownGates) : (s.path p).isSome := by
  obtain ⟨a, ha, -⟩ := (h.flagged p).mp hp
  rw [ha]; rfl

theorem noGate_flagged (h : s.GateBook) (ha : s.path p = some a) (hf : ∀ a, (f a).isGate = false) (q : ℕ) :
    q ∈ s.knownGates.erase p ↔ ∃ a, (s.setPath p f).path q = some a ∧ a.isGate = true := by
  by_cases hq : q = p
  · subst hq
    refine iff_of_false h.peaked.nodup.not_mem_erase ?_
    rintro ⟨b, hb, hg⟩
    rw [path_setPath_self ha] at hb
    rw [← Option.some.inj hb, hf] at hg; exact nomatch hg
  · rw [List.mem_erase_of_ne hq, h.flagged, path_setPath_ne hq]

theorem meshGateDel_spec (adapter : Adapter) (h : s.GateBook) (ha : s.path p = some a) :
    ∃ n m l, s.meshGateDel adapter p = some { s.setPath p .noGate with
        knownGates := s.knownGates.erase p, numGates := n, maxAddrGate := m, maxAddrGateIsLargerThanSelf := l } ∧
      Peaked s.dstVal (s.knownGates.erase p) n m := by
  unfold meshGateDel
  rw [ha]
  simp only [Option.bind_eq_bind, Option.bind_some]
  by_cases hg : a.isGate = true
  · have hp : p ∈ s.knownGates := (h.flagged p).mpr ⟨a, ha, hg⟩
    have hpeaked := h.peaked
    rw [if_neg (by rw [hg]; exact nofun)]
    by_cases h1 : s.numGates = 1
    · rw [if_pos (show (s.setPath p .noGate).numGates = 1 from h1)]
      exact ⟨_, _, _, rfl, hpeaked.erase hp (fun _ => rfl) (fun hn => absurd h1 hn) fun hn => absurd h1 hn⟩
    rw [if_neg (show (s.setPath p .noGate).numGates ≠ 1 from h1)]
    by_cases hmax : s.maxAddrGate = some p
    · have hmax' : (s.setPath p .noGate).maxAddrGate = some p := hmax
      have hne : s.knownGates.erase p ≠ [] := by
        intro hnil
        have hlen := List.length_erase_of_mem hp
        have hpos := List.length_pos_of_mem hp
        rw [hnil, List.length_nil] at hlen; exact h1 (by rw [hpeaked.num]; omega)
      set s' : MeshInfo := { s.setPath p .noGate with
        knownGates := s.knownGates.erase p, numGates := s.numGates - 1 } with hs'
      have hlive : ∀ q ∈ s.knownGates.erase p, (s'.path q).isSome := by
        intro q hq
        have hqp : q ≠ p := fun he => (List.Nodup.not_mem_erase hpeaked.nodup) (he ▸ hq)
        show ((s.setPath p .noGate).path q).isSome
        rw [path_setPath_ne hqp]; exact h.live (List.mem_of_mem_erase hq)
      obtain ⟨m, hm, hpeak⟩ := largestGate_none hne hlive
      obtain ⟨b, hb⟩ := Option.isSome_iff_exists.mp (hlive m hpeak.1)
      have hkey : ∀ q, s'.dstVal q = s.dstVal q := fun q => dstVal_setPath fun _ => rfl
      have hpeak' : IsPeak s.dstVal (s.knownGates.erase p) m :=
        ⟨hpeak.1, fun y hy => by rw [← hkey, ← hkey]; exact hpeak.2 y hy⟩
      refine ⟨s.numGates - 1, some m, b.dst.isLarger adapter.macAddr, ?_, ?_⟩
      · rw [if_pos hmax']
        show (s'.largestGate (s.knownGates.erase p) none).bind _ = _
        rw [hm]
        show (s'.path m).bind _ = _
        rw [hb]; rfl
      · exact hpeaked.erase hp (fun h => absurd h h1) (fun _ _ => ⟨m, rfl, hpeak'⟩) fun _ hn => absurd hmax hn
    · rw [if_neg (show (s.setPath p .noGate).maxAddrGate ≠ some p from hmax)]
      exact ⟨_, _, _, rfl, hpeaked.erase hp (fun h => absurd h h1) (fun _ h => absurd h hmax) fun _ _ => rfl⟩
  · have hp : p ∉ s.knownGates := by
      intro hp
      obtain ⟨b, hb, hbg⟩ := (h.flagged p).mp hp
      rw [ha] at hb; exact hg (Option.some.inj hb ▸ hbg)
    rw [if_pos (by rw [Bool.eq_false_iff.mpr hg]; rfl)]
    refine ⟨s.numGates, s.maxAddrGate, s.maxAddrGateIsLargerThanSelf, ?_, ?_⟩
    · have hsame : a.noGate = a := by
        unfold MeshPath.noGate
        rw [← Bool.eq_false_iff.mpr hg]
      have hheap : s.setPath p .noGate = s := by
        unfold setPath
        rw [Heap.modify_eq_self ha hsame]
      rw [List.erase_of_not_mem hp, hheap]; rfl
    · rw [List.erase_of_not_mem hp]; exact h.peaked

end MeshInfo

end Rtl8852cu.Mesh
