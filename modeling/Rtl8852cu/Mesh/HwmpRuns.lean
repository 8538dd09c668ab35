import Rtl8852cu.Mesh.HwmpElems

/-!
# Loop freedom

What a received element must keep (`RxKeeps`): the order of the sequence numbers and metrics of each path, before and after its
handler is called; a smaller `ttl` and a metric that does not wrap in what is forwarded; and a route to an originator
that was not known.  A RANN breaks it in two ways (`Breaks`): its metric is added without saturation, and its
sequence number is compared with that of a path that has none.
-/

namespace Rtl8852cu.Mesh

open Lib MeshInfo

variable {adapter : HwmpAdapter} {now : Systime} {mesh mesh' mesh'' : MeshInfo} {s mid s' : Hwmp} {rx : Rx} {sent : List Sent}

/-- Each path before and after a step keeps the order. -/
def KeepsOrder (now : Systime) (mesh mesh' : MeshInfo) : Prop :=
  ∀ p ∈ mesh.tbl .meshPaths, ∀ a, mesh.path p = some a → ∃ b, mesh'.path p = some b ∧ Ordered now a b

/-- A metric that has been accumulated over the link to the transmitter. -/
def Accumulated (neighbour : Option Neighbour) (received metric : BitVec 32) : Prop :=
  ∃ nb, neighbour = some nb ∧ received ≤ metric ∧ metric.toNat = min (received.toNat + nb.linkMetric.toNat) maxMetric.toNat

def ForwardsRight (rx : Rx) (sent : List Sent) : Prop :=
  match rx.elem with
  | .preq e => ∀ frame, .sel frame ∈ sent → frame.action = .preq → frame.ttl < e.ttl ∧ Accumulated rx.neighbour e.metric frame.metric
  | .prep e => ∀ frame, .sel frame ∈ sent → frame.action = .prep → frame.ttl < e.ttl ∧ Accumulated rx.neighbour e.metric frame.metric
  | .perr e => Hwmp.ForwardsPerr e.ttl sent
  | .rann e => ∀ frame, .sel frame ∈ sent → frame.action = .rann → frame.ttl < e.ttl ∧ Accumulated rx.neighbour e.metric frame.metric

/-- The first element of an originator is accepted: its sequence number is recorded. -/
def AcceptsFirst (adapter : HwmpAdapter) (rx : Rx) (mesh mid mesh' : MeshInfo) : Prop :=
  match rx.elem with
  | .preq e => rx.neighbour.isSome → mesh.lookupFast .meshPaths e.origAddr = none →
      mesh.CanAdd adapter.toAdapter rx.alloc e.origAddr → mid.HasRoute e.origAddr e.origSn
  | .rann e => rx.neighbour.isSome → mesh.lookupFast .meshPaths e.addr = none →
      mesh.CanAdd adapter.toAdapter rx.alloc e.addr → Hwmp.HasRoot e.addr e.seq mesh'
  | _ => True

/-- What is kept by an element, with the state in which its handler is called. -/
structure RxKept (adapter : HwmpAdapter) (rx : Rx) (s mid s' : Hwmp) (sent : List Sent) : Prop where
  before : KeepsOrder rx.now s.mesh mid.mesh
  after : KeepsOrder rx.now mid.mesh s'.mesh
  forwards : ForwardsRight rx sent
  accepts : AcceptsFirst adapter rx s.mesh mid.mesh s'.mesh

/-- An element does its work and keeps what it must. -/
def RxKeeps (adapter : HwmpAdapter) (rx : Rx) (s : Hwmp) : Prop :=
  ∃ pathMetric mid s' sent, s.rxRoute adapter rx = some (pathMetric, mid) ∧
    mid.rxProcess adapter rx pathMetric = some (s', sent) ∧ RxKept adapter rx s mid s' sent

/-- A RANN that is forwarded with a metric that has wrapped, or is the first of its originator and taken for an old one. -/
def Breaks (adapter : HwmpAdapter) (rx : Rx) (s : Hwmp) : Prop :=
  ∃ e nb path, rx.elem = .rann e ∧ Hwmp.Heard adapter rx.now rx.alloc rx.neighbour e nb path s.mesh ∧
    (Hwmp.rannNew e path = true ∧ 1 < e.ttl ∧ adapter.meshForwarding = true ∧ 2 ^ 32 ≤ e.metric.toNat + nb.linkMetric.toNat ∨
      s.mesh.lookupFast .meshPaths e.addr = none ∧ (e.seq = 0 ∨ 2 ^ 31 < e.seq.toNat))

/-! ### Metrics -/

theorem newMetric_toNat (x y : BitVec 32) : (newMetric x y).toNat = min (x.toNat + y.toNat) maxMetric.toNat := by
  have hmax : maxMetric.toNat = 2 ^ 32 - 1 := rfl
  have hx := x.isLt
  have hy := y.isLt
  unfold newMetric
  rw [hmax]
  split
  case isTrue hlt =>
    rw [BitVec.lt_def, BitVec.toNat_add] at hlt
    rw [hmax]; omega
  case isFalse hge =>
    rw [BitVec.lt_def, BitVec.toNat_add] at hge
    rw [BitVec.toNat_add]; omega

theorem accumulated_newMetric (nb : Neighbour) (x : BitVec 32) : Accumulated (some nb) x (newMetric x nb.linkMetric) := by
  refine ⟨nb, rfl, ?_, newMetric_toNat x nb.linkMetric⟩
  have hx := x.isLt
  have hmax : maxMetric.toNat = 2 ^ 32 - 1 := rfl
  rw [BitVec.le_def, newMetric_toNat, hmax]; omega

theorem accumulated_add_iff (nb : Neighbour) (x : BitVec 32) :
    Accumulated (some nb) x (x + nb.linkMetric) ↔ x.toNat + nb.linkMetric.toNat < 2 ^ 32 := by
  have hx := x.isLt
  have hy := nb.linkMetric.isLt
  have hmax : maxMetric.toNat = 2 ^ 32 - 1 := rfl
  constructor
  · rintro ⟨nb', hnb, -, hsum⟩
    obtain rfl := Option.some.inj hnb
    rw [BitVec.toNat_add, hmax] at hsum; omega
  · intro hlt
    refine ⟨nb, rfl, ?_, ?_⟩
    · rw [BitVec.le_def, BitVec.toNat_add]; omega
    · rw [BitVec.toNat_add, hmax]; omega

theorem rannNew_new_iff (e : RannElem) (now : Systime) :
    Hwmp.rannNew e (.new e.addr now) = false ↔ e.seq = 0 ∨ 2 ^ 31 < e.seq.toNat := by
  have hmetric : ¬ e.metric < 0 := BitVec.not_lt_zero
  have hsub : (0 : BitVec 32) - e.seq = -e.seq := BitVec.zero_sub e.seq
  unfold Hwmp.rannNew
  show (rtwSnLt 0 e.seq || decide ((0 : BitVec 32) = e.seq) && decide (e.metric < 0)) = false ↔ _
  rw [decide_eq_false hmetric, Bool.and_false, Bool.or_false, ← Bool.not_eq_true, rtwSnLt_eq_true, hsub, BitVec.toNat_neg,
    ← BitVec.toNat_inj]
  have hlt := e.seq.isLt
  show _ ↔ e.seq.toNat = 0 ∨ _
  omega

/-! ### The order along a step -/

theorem MeshInfo.Evolves.keepsOrder {D : MacAddr → Prop} (h : Evolves D (Ordered now) mesh mesh') : KeepsOrder now mesh mesh' := by
  intro p hp a ha
  obtain ⟨b, hb, hab⟩ := (h.kept p hp).2 a ha
  exact ⟨b, hb, hab.order⟩

variable {malloc : Bool}

theorem Hwmp.RannSteps.keepsOrder (h : Hwmp.RannSteps adapter.toAdapter now malloc mesh mesh') :
    KeepsOrder now mesh mesh' := by
  obtain ⟨mesh₁, mesh₂, ⟨dst, hlook⟩, hq, hev⟩ := h
  intro p hp a ha
  obtain ⟨hp₁, hstep⟩ := hlook.kept p hp
  obtain ⟨b, hb, hab⟩ := hstep a ha
  obtain ⟨c, hc, hbc, hp₂⟩ : ∃ c, mesh₂.path p = some c ∧ c.rank = b.rank ∧ p ∈ mesh₂.tbl .meshPaths := by
    rcases hq with rfl | ⟨q, hq, hrun⟩
    · exact ⟨b, hb, rfl, hp₁⟩
    · obtain ⟨x, hx⟩ := Option.isSome_iff_exists.mp (hlook.settled.tbl_live .meshPaths q hq)
      obtain ⟨m, hm, -, hsame, hself, hother⟩ :=
        queuePreq_path adapter.toAdapter now malloc { start := true, refresh := true } hlook.settled hx
      obtain rfl := Option.some.inj (hrun.symm.trans hm)
      have hp₂ : p ∈ mesh₂.tbl .meshPaths := by
        rw [hsame.tbl]; exact hp₁
      by_cases hpq : p = q
      · subst hpq
        obtain rfl := Option.some.inj (hb.symm.trans hx)
        exact hself.elim (fun h => ⟨_, h, rfl, hp₂⟩) fun h => ⟨_, h, rfl, hp₂⟩
      · exact ⟨b, (hother p hpq).trans hb, rfl, hp₂⟩
  obtain ⟨d, hd, hcd⟩ := (hev.kept p hp₂).2 c hc
  exact ⟨d, hd, (hcd.order.rank_left hbc).looked hab.order⟩

/-! ### One element -/

theorem rxRoute_spec (adapter : HwmpAdapter) (rx : Rx) (h : s.mesh.Settled) :
    ∃ m mid, s.rxRoute adapter rx = some (m, mid) ∧ Evolves AnyDst (Ordered rx.now) s.mesh mid.mesh := by
  unfold Hwmp.rxRoute
  have hsame : Evolves AnyDst (Ordered rx.now) s.mesh s.mesh := .refl h (Ordered.refl rx.now)
  cases rx.elem with
  | preq e =>
    obtain ⟨m, mesh, hrun, hev, -⟩ := hwmpRouteInfoGet_spec adapter rx.now rx.alloc rx.taAlloc rx.neighbour rx.ta e.origAddr
      e.origSn e.lifetime e.metric h
    simp only
    rw [hrun]; exact ⟨m, _, rfl, hev.mono fun _ _ => trivial⟩
  | prep e =>
    obtain ⟨m, mesh, hrun, hev, -⟩ := hwmpRouteInfoGet_spec adapter rx.now rx.alloc rx.taAlloc rx.neighbour rx.ta e.targetAddr
      e.targetSn e.lifetime e.metric h
    simp only
    rw [hrun]; exact ⟨m, _, rfl, hev.mono fun _ _ => trivial⟩
  | perr e => exact ⟨0, s, rfl, hsame⟩
  | rann e => exact ⟨0, s, rfl, hsame⟩

/-- A mesh that the handlers can work on: its books are kept, and its active paths have a next hop. -/
structure Hwmp.Sound (s : Hwmp) : Prop where
  settled : s.mesh.Settled
  hopped : s.mesh.Hopped

theorem MeshInfo.Evolves.rannSteps (hs : mesh.Settled) (h : Evolves AnyDst (Ordered now) mesh mesh') :
    Hwmp.RannSteps adapter.toAdapter now malloc mesh mesh' :=
  ⟨mesh, mesh, ⟨zeroAddr, .refl hs (Looked.refl now)⟩, Or.inl rfl, h⟩

theorem queuePreq_hopped {p : ℕ} {flags : PreqFlags} {adapter : Adapter} (hs : mesh.Settled) (hh : mesh.Hopped)
    (hp : p ∈ mesh.tbl .meshPaths) (hrun : mesh.queuePreq adapter now malloc p flags = some mesh') :
    mesh'.Settled ∧ mesh'.Hopped := by
  obtain ⟨a, ha⟩ := Option.isSome_iff_exists.mp (hs.tbl_live .meshPaths p hp)
  obtain ⟨m, hm, hsettled, hsame, hself, hother⟩ := queuePreq_path adapter now malloc flags hs ha
  obtain rfl := Option.some.inj (hrun.symm.trans hm)
  refine ⟨hsettled, fun q hq b hb hactive => ?_⟩
  rw [hsame.tbl] at hq
  by_cases hqp : q = p
  · subst hqp
    rcases hself with h | h
    · exact hh q hq b (ha.trans (h.symm.trans hb)) hactive
    · obtain rfl := Option.some.inj (h.symm.trans hb); exact hh q hq a ha hactive
  · exact hh q hq b ((hother q hqp).symm.trans hb) hactive

theorem Hwmp.RannSteps.sound (h : Hwmp.RannSteps adapter.toAdapter now malloc s.mesh s'.mesh) (hs : s.Sound) :
    s'.Sound := by
  obtain ⟨mesh₁, mesh₂, ⟨dst, hlook⟩, hq, hev⟩ := h
  have h₁ := hlook.hopped hs.settled hs.hopped
  rcases hq with rfl | ⟨p, hp, hrun⟩
  · exact ⟨hev.settled, hev.hopped hlook.settled h₁⟩
  · obtain ⟨hsettled, hhop⟩ := queuePreq_hopped hlook.settled h₁ hp hrun
    exact ⟨hev.settled, hev.hopped hsettled hhop⟩

theorem rxProcess_steps (adapter : HwmpAdapter) (rx : Rx) (m : BitVec 32) (h : s.Sound) :
    ∃ s' sent, s.rxProcess adapter rx m = some (s', sent) ∧ Hwmp.RannSteps adapter.toAdapter rx.now rx.malloc s.mesh s'.mesh := by
  have hsame : Hwmp.RannSteps adapter.toAdapter rx.now rx.malloc s.mesh s.mesh :=
    Evolves.rannSteps h.settled (.refl h.settled (Ordered.refl rx.now))
  unfold Hwmp.rxProcess
  cases rx.elem with
  | preq e =>
    simp only
    split
    · exact ⟨s, [], rfl, hsame⟩
    · obtain ⟨s', sent, hrun, hev, -⟩ := Hwmp.preqFrameProcess_spec adapter rx.now rx.ta e m h.settled
      exact ⟨s', sent, hrun, Evolves.rannSteps h.settled hev⟩
  | prep e =>
    simp only
    split
    · exact ⟨s, [], rfl, hsame⟩
    · obtain ⟨s', sent, hrun, hev, -⟩ := Hwmp.prepFrameProcess_spec adapter rx.now e m h.settled h.hopped
      exact ⟨s', sent, hrun, Evolves.rannSteps h.settled hev⟩
  | perr e =>
    obtain ⟨s', sent, hrun, hev, -⟩ := Hwmp.perrFrameProcess_spec adapter rx.now rx.ta e h.settled h.hopped
    exact ⟨s', sent, hrun, Evolves.rannSteps h.settled hev⟩
  | rann e =>
    obtain ⟨s', sent, hrun, hsteps, -⟩ :=
      Hwmp.rannFrameProcess_spec adapter rx.now rx.alloc rx.malloc rx.neighbour rx.ta e h.settled
    exact ⟨s', sent, hrun, hsteps⟩

theorem rxKeeps_iff_of {m : BitVec 32} (h : s.Sound) (hroute : s.rxRoute adapter rx = some (m, mid))
    (hprocess : mid.rxProcess adapter rx m = some (s', sent)) :
    RxKeeps adapter rx s ↔ ForwardsRight rx sent ∧ AcceptsFirst adapter rx s.mesh mid.mesh s'.mesh := by
  obtain ⟨m', mid', hroute', hev⟩ := rxRoute_spec adapter rx h.settled
  obtain ⟨rfl, rfl⟩ := Prod.mk.inj (Option.some.inj (hroute'.symm.trans hroute))
  have hmid : mid'.Sound := ⟨hev.settled, hev.hopped h.settled h.hopped⟩
  obtain ⟨s'', sent', hprocess', hsteps⟩ := rxProcess_steps adapter rx m' hmid
  obtain ⟨rfl, rfl⟩ := Prod.mk.inj (Option.some.inj (hprocess'.symm.trans hprocess))
  constructor
  · rintro ⟨m, mid, s', sent, hr, hp, hkept⟩
    obtain ⟨rfl, rfl⟩ := Prod.mk.inj (Option.some.inj (hr.symm.trans hroute'))
    obtain ⟨rfl, rfl⟩ := Prod.mk.inj (Option.some.inj (hp.symm.trans hprocess'))
    exact ⟨hkept.forwards, hkept.accepts⟩
  · exact fun hrest => ⟨m', mid', s'', sent', hroute', hprocess', hev.keepsOrder, hsteps.keepsOrder, hrest.1, hrest.2⟩

theorem routed_keeps {m base : BitVec 32} {action : MpathFrameType} {ttl : UInt8} {processed : Option (Hwmp × List Sent)}
    (h : s.Sound) (hr : s.rxRoute adapter rx = some (m, mid))
    (hm : m ≠ 0 → ∃ nb, rx.neighbour = some nb ∧ m = newMetric base nb.linkMetric)
    (hp : mid.rxProcess adapter rx m = if m = 0 then some (mid, []) else processed)
    (hspec : ∃ s' sent, processed = some (s', sent) ∧ Forwards action ttl m sent)
    (hright : ∀ sent, ForwardsRight rx sent ↔ ∀ frame, .sel frame ∈ sent → frame.action = action →
      frame.ttl < ttl ∧ Accumulated rx.neighbour base frame.metric)
    (haccepts : ∀ mesh', AcceptsFirst adapter rx s.mesh mid.mesh mesh') : RxKeeps adapter rx s := by
  by_cases hz : m = 0
  · rw [if_pos hz] at hp
    exact (rxKeeps_iff_of h hr hp).mpr ⟨(hright []).mpr fun _ hmem => (nomatch hmem), haccepts _⟩
  · obtain ⟨s', sent, hrun, hfwd⟩ := hspec
    rw [if_neg hz, hrun] at hp
    refine (rxKeeps_iff_of h hr hp).mpr ⟨(hright sent).mpr fun frame hmem hact => ?_, haccepts _⟩
    obtain ⟨nb, hnb, rfl⟩ := hm hz
    obtain ⟨httl, hmetric⟩ := hfwd frame hmem hact
    rw [hnb, hmetric]; exact ⟨httl, accumulated_newMetric nb base⟩

theorem preq_keeps {e : PreqElem} (h : s.Sound) (he : rx.elem = .preq e) : RxKeeps adapter rx s := by
  obtain ⟨m, mesh, hrun, hev, hm, hroute⟩ := hwmpRouteInfoGet_spec adapter rx.now rx.alloc rx.taAlloc rx.neighbour rx.ta e.origAddr
    e.origSn e.lifetime e.metric h.settled
  have hr : s.rxRoute adapter rx = some (m, { s with mesh := mesh }) := by
    simp only [Hwmp.rxRoute, he, hrun]; rfl
  obtain ⟨s', sent, hp, -, hfwd⟩ := Hwmp.preqFrameProcess_spec (s := { s with mesh := mesh }) adapter rx.now rx.ta e m hev.settled
  exact routed_keeps h hr hm (by rw [Hwmp.rxProcess, he]) ⟨s', sent, hp, hfwd⟩ (fun sent => by rw [ForwardsRight, he])
    fun mesh' => by rw [AcceptsFirst, he]; exact hroute

theorem prep_keeps {e : PrepElem} (h : s.Sound) (he : rx.elem = .prep e) : RxKeeps adapter rx s := by
  obtain ⟨m, mesh, hrun, hev, hm, -⟩ := hwmpRouteInfoGet_spec adapter rx.now rx.alloc rx.taAlloc rx.neighbour rx.ta e.targetAddr
    e.targetSn e.lifetime e.metric h.settled
  have hr : s.rxRoute adapter rx = some (m, { s with mesh := mesh }) := by
    simp only [Hwmp.rxRoute, he, hrun]; rfl
  obtain ⟨s', sent, hp, -, hfwd⟩ := Hwmp.prepFrameProcess_spec (s := { s with mesh := mesh }) adapter rx.now e m hev.settled
    (hev.hopped h.settled h.hopped)
  exact routed_keeps h hr hm (by rw [Hwmp.rxProcess, he]) ⟨s', sent, hp, hfwd⟩ (fun sent => by rw [ForwardsRight, he])
    fun mesh' => by rw [AcceptsFirst, he]; trivial

theorem perr_keeps {e : PerrElem} (h : s.Sound) (he : rx.elem = .perr e) : RxKeeps adapter rx s := by
  have hr : s.rxRoute adapter rx = some (0, s) := by
    unfold Hwmp.rxRoute
    rw [he]
  obtain ⟨s', sent, hp, -, hfwd⟩ := Hwmp.perrFrameProcess_spec adapter rx.now rx.ta e h.settled h.hopped
  have hp' : s.rxProcess adapter rx 0 = some (s', sent) := by
    unfold Hwmp.rxProcess
    rw [he]; exact hp
  refine (rxKeeps_iff_of h hr hp').mpr ⟨?_, ?_⟩
  · unfold ForwardsRight
    rw [he]; exact hfwd
  · unfold AcceptsFirst
    rw [he]
    trivial

variable {e : RannElem}

theorem rannForward_mem_iff {m : BitVec 32} :
    (∀ frame, .sel frame ∈ Hwmp.rannForward adapter e m → frame.action = .rann →
        frame.ttl < e.ttl ∧ Accumulated rx.neighbour e.metric frame.metric) ↔
      (1 < e.ttl → adapter.meshForwarding = true → Accumulated rx.neighbour e.metric (e.metric + m)) := by
  unfold Hwmp.rannForward
  split
  case isTrue hfwd =>
    refine ⟨fun h _ _ => (h _ List.mem_cons_self rfl).2, fun h frame hmem _ => ?_⟩
    obtain rfl := Sent.sel.inj (List.mem_singleton.mp hmem)
    exact ⟨ttl_sub_one_lt hfwd.1, h hfwd.1 hfwd.2⟩
  case isFalse hnot =>
    exact ⟨fun _ httl hfwd => absurd ⟨httl, hfwd⟩ hnot, fun _ _ hmem => nomatch hmem⟩

theorem rann_keeps_iff (h : s.Sound) (he : rx.elem = .rann e) : RxKeeps adapter rx s ↔ ¬ Breaks adapter rx s := by
  have hr : s.rxRoute adapter rx = some (0, s) := by
    unfold Hwmp.rxRoute
    rw [he]
  obtain ⟨s', sent, hp, -, hspec⟩ :=
    Hwmp.rannFrameProcess_spec adapter rx.now rx.alloc rx.malloc rx.neighbour rx.ta e h.settled
  have hp' : s.rxProcess adapter rx 0 = some (s', sent) := by
    unfold Hwmp.rxProcess
    rw [he]; exact hp
  rw [rxKeeps_iff_of h hr hp']
  unfold ForwardsRight AcceptsFirst
  rw [he]
  simp only
  rcases hspec with ⟨nb, path, hheard, hnew, rfl, hroot⟩ | ⟨rfl, hold⟩
  · rw [rannForward_mem_iff, hheard.neighbour]
    constructor
    · rintro ⟨hfwd, -⟩ ⟨e', nb', path', he', hheard', hbad⟩
      obtain rfl := Elem.rann.inj (he.symm.trans he')
      obtain rfl := Option.some.inj (hheard.neighbour.symm.trans hheard'.neighbour)
      obtain rfl := hheard.compared.unique hheard'.compared
      rcases hbad with ⟨-, httl, hforward, hover⟩ | ⟨hnone, hseq⟩
      · exact absurd ((accumulated_add_iff nb e.metric).mp (hfwd httl hforward)) (Nat.not_lt.mpr hover)
      · rcases hheard.compared with ⟨p, hsome, -⟩ | ⟨-, -, rfl⟩
        · exact nomatch hnone.symm.trans hsome
        · exact nomatch hnew.symm.trans ((rannNew_new_iff e rx.now).mpr hseq)
    · intro hgood
      refine ⟨fun httl hforward => (accumulated_add_iff nb e.metric).mpr (Nat.not_le.mp fun hover => hgood ?_), fun _ _ _ => hroot⟩
      exact ⟨e, nb, path, he, hheard, Or.inl ⟨hnew, httl, hforward, hover⟩⟩
  · constructor
    · rintro ⟨-, haccept⟩ ⟨e', nb, path, he', hheard, hbad⟩
      obtain rfl := Elem.rann.inj (he.symm.trans he')
      obtain ⟨hnot, hroot⟩ := hold nb path hheard
      rcases hbad with ⟨hnew, -⟩ | ⟨hnone, -⟩
      · exact nomatch hnew.symm.trans hnot
      · rcases hheard.compared with ⟨p, hsome, -⟩ | ⟨-, hcan, -⟩
        · exact nomatch hnone.symm.trans hsome
        · exact hroot hnone (haccept (by rw [hheard.neighbour]; rfl) hnone hcan)
    · intro hgood
      refine ⟨fun _ hmem => (nomatch hmem), fun hnb hnone hcan => ?_⟩
      obtain ⟨nb, hnb⟩ := Option.isSome_iff_exists.mp hnb
      have hheard : Hwmp.Heard adapter rx.now rx.alloc rx.neighbour e nb (.new e.addr rx.now) s.mesh :=
        ⟨hcan.1.1, hnb, Or.inr ⟨hnone, hcan, rfl⟩⟩
      have hseq := (rannNew_new_iff e rx.now).mp (hold nb _ hheard).1
      exact absurd ⟨e, nb, _, he, hheard, Or.inr ⟨hnone, hseq⟩⟩ hgood

theorem rxKeeps_iff (h : s.Sound) : RxKeeps adapter rx s ↔ ¬ Breaks adapter rx s := by
  have hother : (∀ e, rx.elem ≠ .rann e) → ¬ Breaks adapter rx s := fun hne ⟨e, _, _, he, _⟩ => hne e he
  cases he : rx.elem with
  | preq e => exact iff_of_true (preq_keeps h he) (hother fun _ he' => nomatch he.symm.trans he')
  | prep e => exact iff_of_true (prep_keeps h he) (hother fun _ he' => nomatch he.symm.trans he')
  | perr e => exact iff_of_true (perr_keeps h he) (hother fun _ he' => nomatch he.symm.trans he')
  | rann e => exact rann_keeps_iff h he

/-! ### Runs -/

def Hwmp.receive (adapter : HwmpAdapter) (s : Hwmp) (rx : Rx) : Hwmp :=
  (s.meshRxPathSelFrame adapter rx).elim s (·.1)

theorem Hwmp.Sound.receive (h : s.Sound) (adapter : HwmpAdapter) (rx : Rx) : (s.receive adapter rx).Sound := by
  obtain ⟨m, mid, hroute, hev⟩ := rxRoute_spec adapter rx h.settled
  have hmid : mid.Sound := ⟨hev.settled, hev.hopped h.settled h.hopped⟩
  obtain ⟨s', sent, hprocess, hsteps⟩ := rxProcess_steps adapter rx m hmid
  have hrun : s.meshRxPathSelFrame adapter rx = some (s', sent) := by
    unfold Hwmp.meshRxPathSelFrame
    rw [hroute, Option.bind_eq_bind, Option.bind_some]; exact hprocess
  unfold Hwmp.receive
  rw [hrun]; exact hsteps.sound hmid

theorem Hwmp.Sound.foldl (h : s.Sound) (adapter : HwmpAdapter) (rxs : List Rx) : (rxs.foldl (Hwmp.receive adapter) s).Sound := by
  induction rxs generalizing s with
  | nil => exact h
  | cons rx rxs ih => exact ih (h.receive adapter rx)

/-- `rtw_mesh_init_mesh_info` -/
def Hwmp.init (now : Systime) : Hwmp where
  mesh := { MeshInfo.init with lastPreq := now }
  sn := 0
  lastSnUpdate := 0
  preqId := 0
  nextPerr := now

theorem Hwmp.Sound.init (now : Systime) : (Hwmp.init now).Sound where
  settled := by
    have hq : Quiet .init (Hwmp.init now).mesh := ⟨⟨rfl, rfl, rfl, rfl, fun _ => rfl⟩, rfl, rfl, rfl, fun _ => rfl⟩
    exact Settled.init.same (hq.book Book.init) hq.toSameTables
  hopped := fun _ hp => nomatch hp

/-- **Elements in every run**: none reads a path that has been freed, and an active path has a next hop. -/
theorem elements_safe (adapter : HwmpAdapter) (now : Systime) (rxs : List Rx) :
    let s := rxs.foldl (Hwmp.receive adapter) (.init now)
    (∀ rx, (s.meshRxPathSelFrame adapter rx).isSome = true) ∧
      ∀ p ∈ s.mesh.tbl .meshPaths, ∃ a, s.mesh.path p = some a ∧ (a.flags.active = true → a.nextHop ≠ none) := by
  intro s
  have h : s.Sound := (Hwmp.Sound.init now).foldl adapter rxs
  refine ⟨fun rx => ?_, fun p hp => ?_⟩
  · obtain ⟨m, mid, hroute, hev⟩ := rxRoute_spec adapter rx h.settled
    obtain ⟨s', sent, hprocess, -⟩ := rxProcess_steps adapter rx m ⟨hev.settled, hev.hopped h.settled h.hopped⟩
    unfold Hwmp.meshRxPathSelFrame
    rw [hroute, Option.bind_eq_bind, Option.bind_some]
    dsimp only
    rw [hprocess]; rfl
  · obtain ⟨a, ha⟩ := Option.isSome_iff_exists.mp (h.settled.tbl_live .meshPaths p hp)
    exact ⟨a, ha, h.hopped p hp a ha⟩

/-- **Loop freedom.**  Along a run of received elements the order of every path is kept, what is forwarded has a smaller `ttl` and an
accumulated metric, and first elements are accepted, exactly when no RANN breaks it. -/
theorem elements_keep_iff (adapter : HwmpAdapter) (s : Hwmp) (rxs : List Rx) (h : s.Sound) :
    (∀ done rx, done ++ [rx] <+: rxs → RxKeeps adapter rx (done.foldl (Hwmp.receive adapter) s)) ↔
      ∀ done rx, done ++ [rx] <+: rxs → ¬ Breaks adapter rx (done.foldl (Hwmp.receive adapter) s) := by
  constructor
  · exact fun hk done rx hpre => (rxKeeps_iff (h.foldl adapter done)).mp (hk done rx hpre)
  · exact fun hk done rx hpre => (rxKeeps_iff (h.foldl adapter done)).mpr (hk done rx hpre)

def meshStation : HwmpAdapter where
  macAddr := ⟨2, 0, 0, 0, 0, 1⟩
  hz := 250
  msToSystime := fun ms => ms.setWidth 64
  tuToSystime := fun tu => tu.setWidth 64
  pathGateTimeoutFactor := 2
  preqMinInterval := 10
  minDiscoveryTimeout := 100
  maxPreqRetries := 4
  elementTtl := 31
  meshForwarding := true
  meshGateAnnouncementProtocol := false
  netDiameterTraversalTime := 50
  activePathTimeout := 5000
  confirmationInterval := 2000
  perrMinInterval := 100

/-- The first RANN of a root, heard from the root itself. -/
def firstRann (seq : BitVec 32) : Rx where
  now := 0
  ta := ⟨2, 0, 0, 0, 0, 2⟩
  neighbour := some { sta := { id := 0, macAddr := ⟨2, 0, 0, 0, 0, 2⟩ }, linkMetric := 100 }
  alloc := { malloc := true, insert := true }
  taAlloc := { malloc := true, insert := true }
  malloc := true
  elem := .rann { flags := 0, hopcount := 0, ttl := 31, addr := ⟨2, 0, 0, 0, 0, 2⟩, seq := seq, interval := 5000, metric := 0 }

theorem firstRann_heard {seq : BitVec 32} {nb : Neighbour} {path : MeshPath} (he : (firstRann seq).elem = .rann e)
    (hh : Hwmp.Heard meshStation 0 (firstRann seq).alloc (firstRann seq).neighbour e nb path (Hwmp.init 0).mesh) :
    e.seq = seq ∧ e.metric = 0 ∧ nb.linkMetric = 100 := by
  obtain rfl := Elem.rann.inj he
  obtain rfl := Option.some.inj hh.neighbour
  exact ⟨rfl, rfl, rfl⟩

/-- A root whose number is small is accepted. -/
theorem small_rann_kept : (Hwmp.init 0).Sound ∧ RxKeeps meshStation (firstRann 7) (Hwmp.init 0) := by
  refine ⟨.init 0, (elements_keep_iff meshStation (Hwmp.init 0) [firstRann 7] (.init 0)).mpr ?_ [] _ (List.prefix_refl _)⟩
  intro done rx hpre hbad
  obtain ⟨rfl, rfl⟩ : done = [] ∧ rx = firstRann 7 := by
    cases done with
    | nil => exact ⟨rfl, (List.cons_prefix_cons.mp hpre).1⟩
    | cons first done => exact absurd (List.prefix_nil.mp (List.cons_prefix_cons.mp hpre).2) (List.append_ne_nil_of_right_ne_nil _ nofun)
  obtain ⟨e, nb, path, he, hheard, hbad⟩ := hbad
  obtain ⟨hseq, hmetric, hlink⟩ := firstRann_heard he hheard
  rw [hseq, hmetric, hlink] at hbad
  rcases hbad with ⟨-, -, -, hover⟩ | ⟨-, hold⟩
  · exact absurd hover (by decide)
  · exact absurd hold (by decide)

/-- A root whose number is in the upper half of the range is not. -/
theorem large_rann_refused : ¬ ∀ done rx, done ++ [rx] <+: [firstRann 0x90000000] →
      RxKeeps meshStation rx (done.foldl (Hwmp.receive meshStation) (Hwmp.init 0)) := by
  intro h
  refine (rxKeeps_iff (.init 0)).mp (h [] _ (List.prefix_refl _)) ?_
  have hcan : (Hwmp.init 0).mesh.CanAdd meshStation.toAdapter { malloc := true, insert := true } ⟨2, 0, 0, 0, 0, 2⟩ :=
    ⟨by decide, by decide, rfl, rfl⟩
  exact ⟨_, _, _, rfl, ⟨by decide, rfl, Or.inr ⟨rfl, hcan, rfl⟩⟩, Or.inr ⟨rfl, Or.inr (by decide)⟩⟩

end Rtl8852cu.Mesh
