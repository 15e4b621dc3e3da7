import Cc2530Zigbee.SecurityKeysDurable
import Cc2530Zigbee.SecurityKeysIdle

/-!
# The record stays valid

Every call turns a valid record into a valid one, of the size its save
chooses. The one exception is a leave without a network key while the router
parent is still unbound: the record it leaves does not pass the next load.
-/
namespace SecurityKeys

open Octets
open SecurityCounter (Issued kept held)
open NvRecord (Device)
open CcmStar (Aes Block Limits)

variable {build : Build} {issued : Issued} {s s' : State} {r r' : Record} {n : Nat}

theorem Record.Valid.sized (h : r.Valid build n) : n = r.size build := by
  obtain ⟨rfl, hv⟩ | ⟨hb, rfl, hv, -⟩ := h.shape
  · simp [Record.size, Record.routerRecord, hv]
  · simp [Record.size, Record.routerRecord, hb, hv]

theorem Record.Valid.router (h : r.Valid build n) (hr : r.routerRecord build = true) : r.ValidRouter build := by
  obtain ⟨-, hv⟩ | ⟨-, -, -, hv⟩ := h.shape
  · simp [Record.routerRecord, hv] at hr
  · exact hv

/-- The size and the router octets after a change that keeps the version. -/
theorem Record.Valid.reshape (h : r.Valid build n) (hv : r'.version = r.version)
    (hr : r.routerRecord build = true → r.ValidRouter build → r'.ValidRouter build) :
    (r'.size build = 112 ∧ r'.version = 2) ∨
    (build.parentRecovery = true ∧ r'.size build = 144 ∧ r'.version = 3 ∧ r'.ValidRouter build) := by
  obtain ⟨-, h2⟩ | ⟨hb, -, h3, hok⟩ := h.shape
  · exact .inl ⟨by simp [Record.size, Record.routerRecord, hv, h2], hv.trans h2⟩
  · have hrec : r.routerRecord build = true := by simp [Record.routerRecord, hb, h3]
    exact .inr ⟨hb, by simp [Record.size, Record.routerRecord, hv, hb, h3], hv.trans h3, hr hrec hok⟩

/-- A record without a network key is before its first key, or was left without one. -/
theorem Record.Valid.keyless (h : r.Valid build n) (hn : r.network = false) : r.Keyless := by
  by_contra hk
  have ha := (h.slots hk).active
  simp only [Record.network, Bool.or_eq_false_iff] at hn
  cases hf : r.flags.active <;> simp [hf, hn] at ha

theorem Record.Valid.keyed (h : r.Valid build n) (hn : r.network = true) : ¬ r.Keyless := fun hk => by
  have hf := (h.blank hk).flags
  simp [Record.network, hf, Flags.zero] at hn

theorem Record.Valid.network (h : r.Valid build n) (hk : ¬ r.Keyless) : r.network = true := by
  by_contra hn
  exact hk (h.keyless (by simpa using hn))

/-- Only an associated device without a key can have an unbound router. -/
theorem RouterJoined.bound (h : r.RouterJoined build) (hb : build.routerJoin = true)
    (hp : r.phase ≠ .associated ∨ r.flags.wasVerified = true) : r.router.flags.unbound = false := by
  unfold Record.RouterJoined at h
  rw [if_pos hb] at h
  by_contra hu
  rw [if_pos (by simpa using hu)] at h
  obtain hp | hp := hp
  · exact hp h.2.2.1
  · simp [h.1] at hp

theorem Record.ValidRouter.bound (h : r.ValidRouter build)
    (hp : r.phase ≠ .associated ∨ r.flags.wasVerified = true) : r.router.flags.unbound = false := by
  obtain hj | hu := h.unbound
  · cases hk : r.router.flags.known with
    | true => exact RouterJoined.bound (h.known hk).joined hj hp
    | false =>
      have hf := (h.blank hk).2.2.2
      simp [hf, RouterFlags.zero]
  · exact hu

/-- A verified device fits any bound router. -/
theorem joined_verified (hv : r.flags.wasVerified = true) (hu : r.router.flags.unbound = false) :
    r.RouterJoined build := by
  unfold Record.RouterJoined
  split
  · rw [if_neg (by simp [hu])]
    exact .inl hv
  · exact hv

/-- Past the association a bound router stays acceptable through the join, and when it is left. -/
theorem joined_later (h : r.RouterJoined build) (hf : r'.router.flags = r.router.flags)
    (hu : r.router.flags.unbound = false) (hw : r.flags.wasVerified = true → r'.flags.wasVerified = true)
    (hp : 4 ≤ r'.phase.code ∧ (r'.phase.code ≤ 7 ∨ r'.phase = .left)) : r'.RouterJoined build := by
  unfold Record.RouterJoined at h ⊢
  split
  · rename_i hb
    rw [if_pos hb, if_neg (by simp [hu])] at h
    rw [if_neg (by simp [hf, hu]), hf]
    obtain h | h := h
    · exact .inl (hw h)
    · exact .inr ⟨h.1, hp⟩
  · rename_i hb
    rw [if_neg hb] at h
    exact hw h

/-- The router octets stay; the rest of the record must still fit them. -/
theorem Record.ValidRouter.carry (h : r.ValidRouter build) (hr : r'.router = r.router) (ho : r'.own = r.own)
    (ht : r'.tc = r.tc) (ha : r.router.flags.known = true → r.router.addr ≠ r'.addr)
    (hs : ∀ i, r'.flags.slot i = false → r.flags.slot i = false)
    (hj : r.router.flags.known = true → r'.RouterJoined build) : r'.ValidRouter build where
  reserved := hr ▸ h.reserved
  spare := hr ▸ h.spare
  unbound := hr ▸ h.unbound
  update := hr ▸ h.update
  known := fun hk => by
    rw [hr] at hk
    have hknown := h.known hk
    refine ⟨hj hk, ?_, ?_, ?_, ?_, ?_, ?_, fun i hi => ?_⟩
    · rw [hr]
      exact hknown.ieee
    · rw [hr, ho]
      exact hknown.own
    · rw [hr, ht]
      exact hknown.tc
    · rw [hr]
      exact hknown.nonzero
    · rw [hr]
      exact hknown.addr
    · rw [hr]
      exact ha hk
    · rw [hr]
      exact hknown.empty i (hs i hi)
  blank := hr ▸ h.blank

/-! The parents. -/

/-- A change of the router octets alone. -/
theorem rerouted_valid {version : UInt8} {router : Router} {m : Nat} (h : r.Valid build n)
    (hs : (m = 112 ∧ version = 2) ∨ (build.parentRecovery = true ∧ m = 144 ∧ version = 3 ∧
      ({ r with version := version, router := router } : Record).ValidRouter build)) :
    ({ r with version := version, router := router } : Record).Valid build m where
  shape := hs
  magic := h.magic
  config := ⟨h.config.own, h.config.tc, h.config.differ, h.config.ep, h.config.pan, h.config.nonzero,
    h.config.addr, h.config.channel⟩
  spare := h.spare
  phases := h.phases
  link := h.link
  blank := fun hk =>
    have hb := h.blank hk
    ⟨hb.flags, hb.nk, hb.pk, hb.nf, hb.seq, hb.parent, hb.timeout⟩
  slots := fun hk =>
    have hs := h.slots hk
    ⟨hs.active, hs.newer, hs.differ, hs.used, hs.empty⟩
  address := h.address
  pending := h.pending
  verified := h.verified
  late := h.late
  rejoin := h.rejoin
  rejoining := h.rejoining
  timeout := h.timeout

theorem upgraded_valid (h : r.Valid build n) (hb : build.parentRecovery = true) :
    ({ r with version := 3, router := .zero } : Record).Valid build
      (({ r with version := 3, router := .zero } : Record).size build) := by
  refine rerouted_valid h (.inr ⟨hb, by simp [Record.size, Record.routerRecord, hb], rfl, ?_⟩)
  exact ⟨rfl, rfl, .inr rfl, fun _ => rfl, by simp [Router.zero, RouterFlags.zero],
    fun _ => ⟨rfl, rfl, fun _ => rfl, rfl⟩⟩

theorem remembered_valid {parent : Parent} (h : r.Valid build n) (hp : Rememberable build r parent) :
    (remembered r parent).Valid build ((remembered r parent).size build) := by
  have hw := h.verified hp.phase
  refine rerouted_valid h (h.reshape rfl fun _ hr => ?_)
  refine ⟨hr.reserved, hr.spare, hr.unbound, hr.update, fun _ => ?_, by simp [remembered]⟩
  have hu := hr.bound (.inr hw)
  exact ⟨joined_verified hw hu, hp.ieee, hp.own, fun _ => hp.tc, hp.nonzero, hp.address, hp.differ, hp.empty⟩

theorem selected_valid {router : Bool} {id : UInt8} (h : r.Valid build n)
    (hp : r.phase = .verified ∨ r.phase = .rejoining) (hk : router = true → r.router.flags.known = true)
    (hid : router = false → id = 0) :
    (selected r router id).Valid build ((selected r router id).size build) := by
  have hw : r.flags.wasVerified = true := hp.elim h.verified h.rejoining
  refine rerouted_valid h (h.reshape rfl fun _ hr => ?_)
  refine ⟨hr.reserved, hr.spare, hr.unbound, hid, fun hn => ?_, fun hn => ?_⟩
  · obtain ⟨-, h1, h2, h3, h4, h5, h6, h7⟩ := hr.known hn
    exact ⟨joined_verified hw (hr.bound (.inr hw)), h1, h2, h3, h4, h5, h6, h7⟩
  · obtain ⟨h1, h2, h3, h4⟩ := hr.blank hn
    refine ⟨h1, h2, h3, ?_⟩
    cases router with
    | true => simp [selected, hk rfl] at hn
    | false =>
      simp only [selected, h4]
      rfl

/-- A provisioned record has no router yet. -/
theorem provisioned_unknown (h : r.Valid build n) (hp : r.phase = .provisioned) (hr : r.ValidRouter build) :
    r.router.flags.known = false := by
  have hf := (h.blank (.inl (by simp [hp, Phase.code]))).flags
  have hw : r.flags.wasVerified = false := by simp [hf, Flags.zero]
  by_contra hk
  have hj := (hr.known (by simpa using hk)).joined
  have hu := hr.bound (.inl (by simp [hp]))
  unfold Record.RouterJoined at hj
  split at hj
  · rw [if_neg (by simp [hu])] at hj
    simp [hw, hp, Phase.code] at hj
  · simp [hw] at hj

theorem associated_valid {a : UInt16} (h : r.Valid build n) (hp : r.phase = .provisioned) (h0 : a ≠ 0)
    (h8 : a < 0xFFF8) : (associatedRecord r a).Valid build ((associatedRecord r a).size build) := by
  have hb := h.blank (.inl (by simp [hp, Phase.code]))
  have hne : a ≠ 0xFFFF := fun he => by
    rw [he] at h8
    exact absurd h8 (by decide)
  have hf : (associatedRecord r a).flags = .zero := hb.flags
  have hphase := associatedRecord_phase r a
  refine ⟨h.reshape rfl fun _ hr => ?_, h.magic, ⟨h.config.own, h.config.tc, h.config.differ, h.config.ep,
    h.config.pan, h0, .inl h8, h.config.channel⟩, h.spare, by simp [hphase, Phase.code], h.link,
    fun _ => ⟨hf, hb.nk, hb.pk, hb.nf, hb.seq, rfl, rfl⟩, fun hn => absurd (.inl (by simp [hphase, Phase.code])) hn,
    .inr (.inr hne), ?_, by simp [hphase], by simp [hf, Flags.zero], by simp [hf, Flags.zero], by simp [hphase],
    fun ht => by cases ht⟩
  · have hk := provisioned_unknown h hp hr
    exact hr.carry rfl rfl rfl (fun hn => by simp [hk] at hn) (fun _ hi => hi) (fun hn => by simp [hk] at hn)
  · have hpk : (associatedRecord r a).pk = zeroKey := hb.pk
    simp [Record.ValidPending, hphase, hf, Flags.zero, hpk]

theorem unbound_valid {a : UInt16} (h : r.Valid build n) (hb : build.routerJoin = true)
    (hp : r.phase = .associated) (h0 : a ≠ 0) (h8 : a < 0xFFF8) (hd : a ≠ r.addr) :
    (unboundRecord r a).Valid build ((unboundRecord r a).size build) := by
  have hf := (h.blank (.inl (by simp [hp, Phase.code]))).flags
  have hrec := build.router_recovers hb
  refine rerouted_valid h (.inr ⟨hrec, by simp [Record.size, Record.routerRecord, unboundRecord, hrec], rfl, ?_⟩)
  refine ⟨rfl, rfl, .inl hb, fun _ => rfl, fun _ => ?_, by simp [unboundRecord]⟩
  refine ⟨?_, h.config.tc, h.config.differ.symm, by simp [unboundRecord], h0, h8, hd, fun _ _ => rfl⟩
  have hw : (unboundRecord r a).flags.wasVerified = false := by
    change r.flags.wasVerified = false
    simp [hf, Flags.zero]
  unfold Record.RouterJoined
  rw [if_pos hb, if_pos rfl]
  exact ⟨hw, rfl, hp, rfl⟩

/-! Phases. -/

/-- The pending key is history or absent, not one in use. -/
def Settled (r : Record) : Prop :=
  r.phase ≠ .provisional ∧ r.phase ≠ .waitConfirm ∧ (r.phase = .left → r.flags.retired = true ∨ r.pk = zeroKey)

theorem settled_pending (h : r.ValidPending) (hs : Settled r) :
    if r.flags.retired then r.flags.wasVerified = true ∧ r.pk ≠ zeroKey ∧ r.pk ≠ r.lk else r.pk = zeroKey := by
  unfold Record.ValidPending at h
  rwa [if_neg] at h
  rintro (hp | hp | ⟨hp, hr, hk⟩)
  · exact hs.1 hp
  · exact hs.2.1 hp
  · obtain h' | h' := hs.2.2 hp
    · simp [hr] at h'
    · exact hk h'

theorem pending_left (h : r.ValidPending) (hp : r'.phase = .left) (hk : r'.pk = r.pk) (hl : r'.lk = r.lk)
    (hr : r'.flags.retired = r.flags.retired) (hw : r'.flags.wasVerified = r.flags.wasVerified) :
    r'.ValidPending := by
  unfold Record.ValidPending at *
  rw [hp, hk, hl, hr, hw]
  simp only [reduceCtorEq, true_and, false_or]
  split at h
  · rename_i hc
    rw [if_pos ⟨h.1, h.2.1⟩]
    exact h
  · rename_i hc
    split at h
    · rename_i ht
      rw [if_neg (by simp [ht]), if_pos ht]
      exact h
    · rename_i ht
      rw [if_neg (by simp [h]), if_neg ht]
      exact h

theorem pending_settled (h : r.ValidPending) (hs : Settled r) (hp : r'.phase ≠ .provisional)
    (hp' : r'.phase ≠ .waitConfirm) (hp'' : r'.phase ≠ .left) (hk : r'.pk = r.pk) (hl : r'.lk = r.lk)
    (hr : r'.flags.retired = r.flags.retired) (hw : r'.flags.wasVerified = r.flags.wasVerified) :
    r'.ValidPending := by
  have hset := settled_pending h hs
  unfold Record.ValidPending
  rw [if_neg (by simp [hp, hp', hp'']), hk, hl, hr, hw]
  exact hset

/-- The record with another phase octet and leave option. -/
def rephased (r : Record) (b : PhaseByte) (allowed : Bool) : Record :=
  { r with phaseByte := b, flags := { r.flags with rejoinAllowed := allowed } }

/-- A device with a network key changes its phase. -/
theorem rephased_valid {b : PhaseByte} {allowed : Bool} (h : r.Valid build n) (hk : ¬ r.Keyless)
    (hp : 4 ≤ b.phase.code ∧ b.phase.code ≤ 10) (hpend : (rephased r b allowed).ValidPending)
    (hverified : b.phase = .verified → r.flags.wasVerified = true)
    (hlate : r.flags.wasVerified = true → 5 ≤ b.phase.code)
    (hrejoin : allowed = true → b.phase = .left ∨ b.phase = .rejoining)
    (hrejoining : b.phase = .rejoining → r.flags.wasVerified = true)
    (htime : b.timeoutPending = true → b.phase ≠ .left ∧ b.phase ≠ .rejoining)
    (hjoin : r.routerRecord build = true → r.router.flags.known = true → r.RouterJoined build →
      r.router.flags.unbound = false → (rephased r b allowed).RouterJoined build) :
    (rephased r b allowed).Valid build ((rephased r b allowed).size build) := by
  have hnet := h.network hk
  have hnas : r.phase ≠ .associated := fun he => hk (.inl (by simp [he, Phase.code]))
  have hkeyed : ¬ (rephased r b allowed).Keyless := by
    rintro (hl | ⟨-, hn⟩)
    · have hl : b.phase.code ≤ 3 := hl
      omega
    · have hn : r.network = false := hn
      simp [hnet] at hn
  refine ⟨h.reshape rfl fun hrec hr => ?_, h.magic, ⟨h.config.own, h.config.tc, h.config.differ, h.config.ep,
    h.config.pan, h.config.nonzero, h.config.addr, h.config.channel⟩, h.spare,
    ⟨le_trans (by decide) hp.1, hp.2⟩, h.link, fun hl => absurd hl hkeyed, fun _ => ?_, ?_, hpend, hverified, hlate,
    hrejoin, hrejoining, htime⟩
  · exact hr.carry rfl rfl rfl (fun hn => (hr.known hn).differ) (fun _ hi => hi)
      (fun hn => hjoin hrec hn (hr.known hn).joined (hr.bound (.inl hnas)))
  · have hs := h.slots hk
    exact ⟨hs.active, hs.newer, hs.differ, hs.used, hs.empty⟩
  · obtain ha | ha | ha := h.address
    · exact absurd (.inl (by simp [ha, Phase.code])) hk
    · exact absurd (.inr ha) hk
    · exact .inr (.inr ha)

theorem keyed_phase (hp : 4 ≤ r.phase.code) (hl : r.phase ≠ .left) : ¬ r.Keyless := by
  rintro (h | ⟨h, -⟩)
  · omega
  · exact hl h

/-- The leave option is set only between a leave and the next admission. -/
theorem Record.Valid.stays (h : r.Valid build n) (hl : r.phase ≠ .left) (hj : r.phase ≠ .rejoining) :
    r.flags.rejoinAllowed = false := by
  by_contra ha
  obtain hp | hp := h.rejoin (by simpa using ha)
  · exact hl hp
  · exact hj hp

theorem requested_valid (h : r.Valid build n)
    (hp : r.phase = .received ∨ r.phase = .requested ∨ r.phase = .verified) :
    (r.setPhase .requested).Valid build ((r.setPhase .requested).size build) := by
  have hk : ¬ r.Keyless := by
    obtain hp | hp | hp := hp <;> exact keyed_phase (by simp [hp, Phase.code]) (by simp [hp])
  have hs : Settled r := by
    obtain hp | hp | hp := hp <;> simp [Settled, hp]
  have hset : r.setPhase .requested =
      rephased r ⟨.requested, r.phaseByte.parent, r.phaseByte.timeoutPending⟩ r.flags.rejoinAllowed := rfl
  have hstay := h.stays (by obtain hp | hp | hp := hp <;> simp [hp]) (by obtain hp | hp | hp := hp <;> simp [hp])
  rw [hset]
  refine rephased_valid h hk (by simp [Phase.code]) (pending_settled h.pending hs ?_ ?_ ?_ rfl rfl rfl rfl)
    (by simp) (fun _ => by simp [Phase.code]) (by simp [hstay]) (by simp) (by simp)
    (fun _ _ hj hu => joined_later hj rfl hu id (by simp [rephased, Record.phase, Phase.code]))
  all_goals simp [rephased, Record.phase]

theorem verifying_valid (h : r.Valid build n) (hp : r.phase = .provisional ∨ r.phase = .waitConfirm) :
    (r.setPhase .waitConfirm).Valid build ((r.setPhase .waitConfirm).size build) := by
  have hk : ¬ r.Keyless := by
    obtain hp | hp := hp <;> exact keyed_phase (by simp [hp, Phase.code]) (by simp [hp])
  have hset : r.setPhase .waitConfirm =
      rephased r ⟨.waitConfirm, r.phaseByte.parent, r.phaseByte.timeoutPending⟩ r.flags.rejoinAllowed := rfl
  have hstay := h.stays (by obtain hp | hp := hp <;> simp [hp]) (by obtain hp | hp := hp <;> simp [hp])
  have hpend := h.pending
  unfold Record.ValidPending at hpend
  rw [if_pos (by tauto)] at hpend
  rw [hset]
  refine rephased_valid h hk (by simp [Phase.code]) ?_ (by simp) (fun _ => by simp [Phase.code]) (by simp [hstay])
    (by simp) (by simp)
    (fun _ _ hj hu => joined_later hj rfl hu id (by simp [rephased, Record.phase, Phase.code]))
  unfold Record.ValidPending
  rw [if_pos (.inr (.inl rfl))]
  exact hpend

theorem rejoining_valid (h : r.Valid build n) (hn : r.network = true) (hw : r.flags.wasVerified = true)
    (hk : r.flags.retired = true ∨ r.pk = zeroKey)
    (hp : r.phase = .verified ∨ r.phase = .rejoining ∨ (r.phase = .left ∧ r.flags.rejoinAllowed = true)) :
    ((cleared r).setPhase .rejoining).Valid build (((cleared r).setPhase .rejoining).size build) := by
  have hs : Settled r := by
    obtain hp | hp | ⟨hp, -⟩ := hp <;> simp [Settled, hp, hk]
  have hset : (cleared r).setPhase .rejoining = rephased r ⟨.rejoining, 0, false⟩ r.flags.rejoinAllowed := rfl
  rw [hset]
  refine rephased_valid h (h.keyed hn) (by simp [Phase.code]) (pending_settled h.pending hs ?_ ?_ ?_ rfl rfl rfl rfl)
    (by simp) (fun _ => by simp [Phase.code]) (by simp) (fun _ => hw) (by simp)
    (fun _ _ _ hu => joined_verified hw hu)
  all_goals simp [rephased, Record.phase]

/-- The keepalive bits of a device with a network key. -/
theorem keepalive_valid {b : PhaseByte} (h : r.Valid build n) (hn : r.network = true) (hb : b.phase = r.phase)
    (ht : b.timeoutPending = true → r.phase ≠ .left ∧ r.phase ≠ .rejoining) :
    ({ r with phaseByte := b } : Record).Valid build (({ r with phaseByte := b } : Record).size build) := by
  have hk := h.keyed hn
  have hcode : 4 ≤ r.phase.code := by
    by_contra hlow
    exact hk (.inl (by omega))
  have hset : ({ r with phaseByte := b } : Record) = rephased r b r.flags.rejoinAllowed := rfl
  have hphase : (rephased r b r.flags.rejoinAllowed).phase = r.phase := hb
  rw [hset]
  refine rephased_valid h hk (by rw [hb]; exact ⟨hcode, h.phases.2⟩) ?_ (fun hv => h.verified (hb.symm.trans hv))
    (by rw [hb]; exact h.late) (by rw [hb]; exact h.rejoin) (fun hv => h.rejoining (hb.symm.trans hv))
    (by rw [hb]; exact ht) (fun _ _ hj _ => ?_)
  · have hp := h.pending
    unfold Record.ValidPending at hp ⊢
    rw [hphase]
    exact hp
  · unfold Record.RouterJoined at hj ⊢
    rw [hphase]
    exact hj

theorem left_valid {rejoin : Bool} (h : r.Valid build n) (hn : r.network = true) :
    (leftRecord r rejoin).Valid build ((leftRecord r rejoin).size build) := by
  have hset : leftRecord r rejoin = rephased r ⟨.left, r.phaseByte.parent, false⟩ rejoin := rfl
  rw [hset]
  exact rephased_valid h (h.keyed hn) (by simp [Phase.code]) (pending_left h.pending rfl rfl rfl rfl rfl)
    (by simp) (fun _ => by simp [Phase.code]) (by simp) (by simp) (by simp)
    (fun _ _ hj hu => joined_later hj rfl hu id (by simp [rephased, Record.phase, Phase.code]))

/-- A join is abandoned before the first network key, with the router parent bound. -/
theorem abandoned_valid (h : r.Valid build n) (hn : r.network = false) (hu : r.unbound build = false) :
    (leftRecord r false).Valid build ((leftRecord r false).size build) := by
  have hb := h.blank (h.keyless hn)
  have hphase := leftRecord_phase r false
  have hf : (leftRecord r false).flags = .zero := by
    change ({ r.flags with rejoinAllowed := false } : Flags) = .zero
    rw [hb.flags]
    rfl
  have hkeyless : (leftRecord r false).Keyless := .inr ⟨hphase, hn⟩
  have hpk : (leftRecord r false).pk = zeroKey := hb.pk
  have hw : r.flags.wasVerified = false := by simp [hb.flags, Flags.zero]
  refine ⟨h.reshape rfl fun hrec hr => ?_, h.magic, ⟨h.config.own, h.config.tc, h.config.differ, h.config.ep,
    h.config.pan, h.config.nonzero, h.config.addr, h.config.channel⟩, h.spare, by simp [hphase, Phase.code], h.link,
    fun _ => ⟨hf, hb.nk, hb.pk, hb.nf, hb.seq, hb.parent, rfl⟩, fun hk => absurd hkeyless hk, .inr (.inl ⟨hphase, hn⟩),
    ?_, by simp [hphase], by simp [hf, Flags.zero], by simp [hphase], by simp [hphase], by
      change false = true → _
      simp⟩
  · have hbound : r.router.flags.unbound = false := by
      obtain hj | hj := hr.unbound
      · simpa [Record.unbound, hj, hrec] using hu
      · exact hj
    refine hr.carry rfl rfl rfl (fun hk => (hr.known hk).differ) (fun _ hi => hi) (fun hk => ?_)
    exact joined_later (hr.known hk).joined rfl hbound (by simp [hw]) (by simp [hphase, Phase.code])
  · simp [Record.ValidPending, hphase, hf, Flags.zero, hpk]

/-! Frames. -/

/-- The record with other floors and another active slot. -/
def refloored (r : Record) (nf rnf : Bool → UInt32) (af : UInt32) (active newer : Bool) : Record :=
  { r with
    nf := nf
    af := af
    flags := { r.flags with active := active, newer := newer }
    router := { r.router with nf := rnf } }

theorem refloored_valid (nf rnf : Bool → UInt32) (af : UInt32) (active newer : Bool) (h : r.Valid build n)
    (hnf : ∀ i, r.flags.slot i = false → nf i = 0)
    (hrnf : r.routerRecord build = true → ∀ i, r.flags.slot i = false ∨ r.router.flags.known = false → rnf i = 0)
    (hflags : r.Keyless → active = r.flags.active ∧ newer = r.flags.newer)
    (hslots : ¬ r.Keyless → r.flags.slot active = true ∧ (newer = true → r.flags.newer = true)) :
    (refloored r nf rnf af active newer).Valid build ((refloored r nf rnf af active newer).size build) := by
  have hkey : (refloored r nf rnf af active newer).Keyless ↔ r.Keyless := Iff.rfl
  refine ⟨h.reshape rfl fun hrec hr => ?_, h.magic, ⟨h.config.own, h.config.tc, h.config.differ, h.config.ep,
    h.config.pan, h.config.nonzero, h.config.addr, h.config.channel⟩, h.spare, h.phases, h.link, fun hk => ?_,
    fun hk => ?_, h.address, h.pending, h.verified, h.late, h.rejoin, h.rejoining, h.timeout⟩
  · refine ⟨hr.reserved, hr.spare, hr.unbound, hr.update, fun hn => ?_, fun hn => ?_⟩
    · obtain ⟨h1, h2, h3, h4, h5, h6, h7, -⟩ := hr.known hn
      exact ⟨h1, h2, h3, h4, h5, h6, h7, fun i hi => hrnf hrec i (.inl hi)⟩
    · obtain ⟨h1, h2, -, h4⟩ := hr.blank hn
      exact ⟨h1, h2, fun i => hrnf hrec i (.inr hn), h4⟩
  · have hb := h.blank (hkey.1 hk)
    obtain ⟨ha, hn⟩ := hflags (hkey.1 hk)
    have hempty : ∀ i, r.flags.slot i = false := by simp [hb.flags, Flags.zero]
    refine ⟨?_, hb.nk, hb.pk, fun i => hnf i (hempty i), hb.seq, hb.parent, hb.timeout⟩
    change ({ r.flags with active := active, newer := newer } : Flags) = .zero
    rw [ha, hn]
    exact hb.flags
  · have hs := h.slots (hkey.not.1 hk)
    obtain ⟨ha, hn⟩ := hslots (hkey.not.1 hk)
    exact ⟨ha, fun hx => hs.newer (hn hx), hs.differ, hs.used,
      fun i hi => ⟨(hs.empty i hi).1, hnf i hi, (hs.empty i hi).2.2⟩⟩

theorem slotOf_some {q : UInt8} {i : Bool} (h : slotOf r q = some i) : r.flags.slot i = true ∧ r.seq i = q := by
  unfold slotOf at h
  split at h
  · obtain rfl := Option.some.inj h
    assumption
  · split at h
    · obtain rfl := Option.some.inj h
      assumption
    · cases h

theorem slotOf_none {q : UInt8} {i : Bool} (h : slotOf r q = none) (hi : r.flags.slot i = true) : r.seq i ≠ q := by
  intro hq
  unfold slotOf at h
  cases i
  · simp [hi, hq] at h
  · split at h
    · cases h
    · simp [hi, hq] at h

theorem slot_network {i : Bool} (h : r.flags.slot i = true) : r.network = true := by
  cases i <;> simp [Record.network, h]

/-- A frame from the router comes from a known one. -/
theorem parentRouter_known (h : r.Valid build n) (hp : r.parentRouter build = true) :
    r.router.flags.known = true := by
  have hr := h.router (parentRouter_record hp)
  by_contra hk
  have hf := (hr.blank (by simpa using hk)).2.2.2
  unfold Record.parentRouter at hp
  simp [hf, RouterFlags.zero] at hp

theorem update_empty {f : Bool → UInt32} {i : Bool} {v : UInt32} (P : Bool → Prop) (hi : ¬ P i)
    (h : ∀ j, P j → f j = 0) (j : Bool) (hj : P j) : Function.update f i v j = 0 := by
  have hne : j ≠ i := fun he => hi (he ▸ hj)
  rw [Function.update_of_ne hne]
  exact h j hj

/-- The floors of empty slots, and all those of an unknown router, are zero. -/
theorem Record.Valid.floors (h : r.Valid build n) : (∀ i, r.flags.slot i = false → r.nf i = 0) ∧
    (r.routerRecord build = true → ∀ i, r.flags.slot i = false ∨ r.router.flags.known = false →
      r.router.nf i = 0) := by
  refine ⟨fun i hi => ?_, fun hrec i hi => ?_⟩
  · by_cases hk : r.Keyless
    · exact (h.blank hk).nf i
    · exact ((h.slots hk).empty i hi).2.1
  · have hok := h.router hrec
    cases hk : r.router.flags.known with
    | true => exact (hok.known hk).empty i (hi.resolve_right (by simp [hk]))
    | false => exact (hok.blank hk).2.2.1 i

theorem heardRecord_eq (r : Record) (x : NwkHeard) :
    heardRecord r x = refloored r
      (if x.router then r.nf else Function.update r.nf x.slot (x.counter + 1))
      (if x.router then Function.update r.router.nf x.slot (x.counter + 1) else r.router.nf) r.af
      (if r.flags.newer && x.slot != r.flags.active then x.slot else r.flags.active)
      (if r.flags.newer && x.slot != r.flags.active then false else r.flags.newer) := by
  unfold heardRecord raiseFloor refloored adopt
  cases x.router <;> simp only [Bool.false_eq_true, if_false, if_true] <;> split <;> rfl

theorem heardRecord_valid {x : NwkHeard} (h : r.Valid build n) (hs : r.flags.slot x.slot = true)
    (hr : x.router = true → r.parentRouter build = true) :
    (heardRecord r x).Valid build ((heardRecord r x).size build) := by
  have hkeyed := h.keyed (slot_network hs)
  obtain ⟨hnf, hrnf⟩ := h.floors
  rw [heardRecord_eq]
  refine refloored_valid _ _ _ _ _ h ?_ (fun hrec => ?_) (fun hk => absurd hk hkeyed) (fun _ => ?_)
  · split
    · exact hnf
    · exact update_empty (fun i => r.flags.slot i = false) (by simp [hs]) hnf
  · split
    · rename_i hx
      have hknown := parentRouter_known h (hr hx)
      exact update_empty (fun i => r.flags.slot i = false ∨ r.router.flags.known = false) (by simp [hs, hknown])
        (hrnf hrec)
    · exact hrnf hrec
  · split
    · exact ⟨hs, by simp⟩
    · exact ⟨(h.slots hkeyed).active, id⟩

theorem admitted_valid {af : UInt32} (h : r.Valid build n) :
    ({ r with af := af } : Record).Valid build (({ r with af := af } : Record).size build) :=
  refloored_valid r.nf r.router.nf af r.flags.active r.flags.newer h h.floors.1 h.floors.2 (fun _ => ⟨rfl, rfl⟩)
    (fun hk => ⟨(h.slots hk).active, id⟩)

theorem switch_valid (h : r.Valid build n) (hn : r.flags.newer = true) :
    (adopt r (!r.flags.active)).Valid build ((adopt r (!r.flags.active)).size build) := by
  have hkeyed : ¬ r.Keyless := fun hk => by
    have hf := (h.blank hk).flags
    simp [hf, Flags.zero] at hn
  exact refloored_valid r.nf r.router.nf r.af (!r.flags.active) false h h.floors.1 h.floors.2
    (fun hk => absurd hk hkeyed) (fun _ => ⟨(h.slots hkeyed).newer hn _, by simp⟩)

/-- A Network Update moves the PAN with its identifier. -/
theorem update_valid {id : UInt8} {pan : UInt16} (h : r.Valid build n) (hp : pan ≠ 0xFFFF) :
    ({ r with update := id, pan := pan } : Record).Valid build
      (({ r with update := id, pan := pan } : Record).size build) where
  shape := h.reshape rfl fun _ hr => hr.carry rfl rfl rfl (fun hk => (hr.known hk).differ) (fun _ hi => hi)
    (fun hk => (hr.known hk).joined)
  magic := h.magic
  config := ⟨h.config.own, h.config.tc, h.config.differ, h.config.ep, hp, h.config.nonzero, h.config.addr,
    h.config.channel⟩
  spare := h.spare
  phases := h.phases
  link := h.link
  blank := fun hk =>
    have hb := h.blank hk
    ⟨hb.flags, hb.nk, hb.pk, hb.nf, hb.seq, hb.parent, hb.timeout⟩
  slots := fun hk =>
    have hs := h.slots hk
    ⟨hs.active, hs.newer, hs.differ, hs.used, hs.empty⟩
  address := h.address
  pending := h.pending
  verified := h.verified
  late := h.late
  rejoin := h.rejoin
  rejoining := h.rejoining
  timeout := h.timeout

/-- A rotated key goes over the inactive slot. -/
theorem rotated_valid {m : Block} {q : UInt8} (h : r.Valid build n) (hn : r.network = true)
    (hs : slotOf r q = none) (hm : reused r m = false) :
    (rotated build r m q).Valid build ((rotated build r m q).size build) := by
  have hkeyed := h.keyed hn
  have hslots := h.slots hkeyed
  obtain ⟨hz, hl, hp, hnew⟩ := reused_false hm
  have ha := hslots.active
  have hall : ∀ i, (rotated build r m q).flags.slot i = true := fun i => by
    change Function.update r.flags.slot (!r.flags.active) true i = true
    rw [Function.update_apply]
    split
    · rfl
    · rename_i hi
      obtain rfl : i = r.flags.active := by simpa using hi
      exact ha
  have hnk : ∀ i, (rotated build r m q).nk i = if i = !r.flags.active then m else r.nk i := fun i =>
    Function.update_apply _ _ _ _
  have hseq : ∀ i, (rotated build r m q).seq i = if i = !r.flags.active then q else r.seq i := fun i =>
    Function.update_apply _ _ _ _
  have hkeyed' : ¬ (rotated build r m q).Keyless := by
    rintro (hl | ⟨-, hx⟩)
    · exact hkeyed (.inl hl)
    · have := slot_network (hall false)
      simp [hx] at this
  have hphase : (rotated build r m q).phase = r.phase := rfl
  refine ⟨h.reshape rfl fun hrec hr => ?_, h.magic, ⟨h.config.own, h.config.tc, h.config.differ, h.config.ep,
    h.config.pan, h.config.nonzero, h.config.addr, h.config.channel⟩, h.spare, h.phases, h.link,
    fun hk => absurd hk hkeyed', fun _ => ⟨hall _, fun _ => hall, fun _ => ?_, fun i _ => ?_,
      fun i hi => by simp [hall] at hi⟩, ?_, h.pending, h.verified, h.late, h.rejoin, h.rejoining, h.timeout⟩
  · have hrouter : (rotated build r m q).router =
        { r.router with nf := Function.update r.router.nf (!r.flags.active) 0 } := by
      have hrec' : Record.routerRecord build { r with flags := { r.flags with
          slot := Function.update r.flags.slot (!r.flags.active) true, newer := true } } = true := hrec
      simp only [rotated, install, hrec', if_true]
    refine ⟨?_, ?_, ?_, ?_, fun hk => ?_, fun hk => ?_⟩
    · rw [hrouter]
      exact hr.reserved
    · rw [hrouter]
      exact hr.spare
    · rw [hrouter]
      exact hr.unbound
    · rw [hrouter]
      exact hr.update
    · rw [hrouter] at hk
      obtain ⟨h1, h2, h3, h4, h5, h6, h7, -⟩ := hr.known hk
      refine ⟨?_, ?_, ?_, ?_, ?_, ?_, ?_, fun i hi => by simp [hall] at hi⟩
      · unfold Record.RouterJoined at h1 ⊢
        rw [hrouter]
        exact h1
      all_goals
        rw [hrouter]
        assumption
    · rw [hrouter] at hk ⊢
      obtain ⟨h1, h2, h3, h4⟩ := hr.blank hk
      refine ⟨h1, h2, fun i => ?_, h4⟩
      simp only [Function.update_apply]
      split
      · rfl
      · exact h3 i
  · have hne : r.seq r.flags.active ≠ q := slotOf_none hs ha
    have hnm : m ≠ r.nk r.flags.active := hnew _ ha
    rw [hseq, hseq, hnk, hnk]
    cases hact : r.flags.active <;> simp [hact] at hne hnm ⊢
    · exact ⟨hne, fun he => hnm he.symm⟩
    · exact ⟨fun he => hne he.symm, hnm⟩
  · rw [hnk]
    split
    · exact ⟨hz, hl, hp⟩
    · rename_i hi
      obtain rfl : i = r.flags.active := by simpa using hi
      exact hslots.used _ ha
  · obtain hx | ⟨-, hx⟩ | hx := h.address
    · exact .inl hx
    · simp [hn] at hx
    · exact .inr (.inr hx)

/-- A pending link key. -/
theorem pendingKey_valid {m : Block} (h : r.Valid build n) (hp : r.phase = .requested) (hm : reused r m = false) :
    (pendingKey r m).Valid build ((pendingKey r m).size build) := by
  have hkeyed : ¬ r.Keyless := keyed_phase (by simp [hp, Phase.code]) (by simp [hp])
  have hslots := h.slots hkeyed
  obtain ⟨hz, hl, -, hnew⟩ := reused_false hm
  have hphase := pendingKey_phase r m
  have hstay := h.stays (by simp [hp]) (by simp [hp])
  refine ⟨h.reshape rfl fun hrec hr => ?_, h.magic, ⟨h.config.own, h.config.tc, h.config.differ, h.config.ep,
    h.config.pan, h.config.nonzero, h.config.addr, h.config.channel⟩, h.spare, by simp [hphase, Phase.code], h.link,
    fun hk => ?_, fun _ => ⟨hslots.active, hslots.newer, hslots.differ, fun i hi => ?_, hslots.empty⟩, ?_, ?_,
    by simp [hphase], fun _ => by simp [hphase, Phase.code], fun ha => ?_, by simp [hphase], fun _ => by simp [hphase]⟩
  · exact hr.carry rfl rfl rfl (fun hk => (hr.known hk).differ) (fun _ hi => hi) (fun hk =>
      joined_later (hr.known hk).joined rfl (hr.bound (.inl (by simp [hp]))) id (by simp [hphase, Phase.code]))
  · exact absurd hk (keyed_phase (by simp [hphase, Phase.code]) (by simp [hphase]))
  · obtain ⟨h1, h2, -⟩ := hslots.used i hi
    exact ⟨h1, h2, (hnew i hi).symm⟩
  · obtain hx | ⟨hx, -⟩ | hx := h.address
    · simp [hp] at hx
    · simp [hp] at hx
    · exact .inr (.inr hx)
  · unfold Record.ValidPending
    rw [if_pos (.inl hphase)]
    exact ⟨rfl, hz, hl⟩
  · have ha : r.flags.rejoinAllowed = true := ha
    simp [hstay] at ha

/-- The pending key becomes the link key. -/
theorem confirmed_valid {counter : UInt32} (h : r.Valid build n) (hp : r.phase = .waitConfirm) :
    (confirmed r counter).Valid build ((confirmed r counter).size build) := by
  have hkeyed : ¬ r.Keyless := keyed_phase (by simp [hp, Phase.code]) (by simp [hp])
  have hslots := h.slots hkeyed
  have hpend := h.pending
  unfold Record.ValidPending at hpend
  rw [if_pos (.inr (.inl hp))] at hpend
  have hphase := confirmed_phase r counter
  have hstay := h.stays (by simp [hp]) (by simp [hp])
  have hw : (confirmed r counter).flags.wasVerified = true := rfl
  refine ⟨h.reshape rfl fun hrec hr => ?_, h.magic, ⟨h.config.own, h.config.tc, h.config.differ, h.config.ep,
    h.config.pan, h.config.nonzero, h.config.addr, h.config.channel⟩, h.spare, by simp [hphase, Phase.code],
    hpend.2.1, fun hk => ?_, fun _ => ⟨hslots.active, hslots.newer, hslots.differ, fun i hi => ?_, hslots.empty⟩,
    ?_, ?_, fun _ => hw, fun _ => by simp [hphase, Phase.code], fun ha => ?_, by simp [hphase], fun _ => by simp [hphase]⟩
  · exact hr.carry rfl rfl rfl (fun hk => (hr.known hk).differ) (fun _ hi => hi)
      (fun hk => joined_verified hw (hr.bound (.inl (by simp [hp]))))
  · exact absurd hk (keyed_phase (by simp [hphase, Phase.code]) (by simp [hphase]))
  · obtain ⟨h1, h2, h3⟩ := hslots.used i hi
    exact ⟨h1, h3, h2⟩
  · obtain hx | ⟨hx, -⟩ | hx := h.address
    · simp [hp] at hx
    · simp [hp] at hx
    · exact .inr (.inr hx)
  · unfold Record.ValidPending
    have hret : (confirmed r counter).flags.retired = true := rfl
    rw [if_neg (by simp [hphase]), if_pos hret]
    exact ⟨hw, h.link, hpend.2.2.symm⟩
  · have ha : r.flags.rejoinAllowed = true := ha
    simp [hstay] at ha

/-- The router octets of a rejoined record: the active parent is the selected one. -/
theorem rejoinedRecord_router (r : Record) (a : UInt16) (hrec : r.routerRecord build = true) :
    (rejoinedRecord build r a).router =
      { r.router with flags := { r.router.flags with active := r.router.flags.attempt } } := by
  have hrec' : Record.routerRecord build { r with addr := a } = true := hrec
  unfold rejoinedRecord
  simp only [hrec', if_true]
  cases ha : r.router.flags.attempt with
  | true =>
    simp only [if_true]
    rfl
  | false =>
    simp only [Bool.false_eq_true, if_false]
    rfl

/-- The rest of a rejoined record. -/
theorem rejoinedRecord_rest (r : Record) (a : UInt16) :
    rejoinedRecord build r a = { r with
      addr := a
      update := (rejoinedRecord build r a).update
      flags := { r.flags with rejoinAllowed := false }
      phaseByte := ⟨.verified, r.phaseByte.parent, r.phaseByte.timeoutPending⟩
      router := (rejoinedRecord build r a).router } := by
  unfold rejoinedRecord
  simp only
  split
  · split <;> rfl
  · rfl

theorem rejoinedRecord_valid {a : UInt16} (h : r.Valid build n) (hp : r.phase = .rejoining) (h0 : a ≠ 0)
    (h8 : a < 0xFFF8)
    (hd : r.routerRecord build = true → r.router.flags.known = true → a ≠ r.router.addr) :
    (rejoinedRecord build r a).Valid build ((rejoinedRecord build r a).size build) := by
  have hkeyed : ¬ r.Keyless := keyed_phase (by simp [hp, Phase.code]) (by simp [hp])
  have hslots := h.slots hkeyed
  have hw := h.rejoining hp
  have hne : a ≠ 0xFFFF := fun he => by
    rw [he] at h8
    exact absurd h8 (by decide)
  have hs : Settled r := by simp [Settled, hp]
  have hphase := @rejoinedRecord_phase build r a
  have hrest := @rejoinedRecord_rest build r a
  generalize hx : rejoinedRecord build r a = x at hrest hphase ⊢
  have hver : x.version = r.version := by rw [hrest]
  refine ⟨h.reshape hver fun hrec hr => ?_, by rw [hrest]; exact h.magic, ?_, by rw [hrest]; exact h.spare,
    by simp [hphase, Phase.code], by rw [hrest]; exact h.link, fun hk => ?_, fun _ => ?_, .inr (.inr ?_), ?_,
    fun _ => ?_, fun _ => by simp [hphase, Phase.code], fun ha => ?_, by simp [hphase], fun _ => by simp [hphase]⟩
  · have hrouter := rejoinedRecord_router r a hrec
    rw [hx] at hrouter
    have hu := hr.bound (.inr hw)
    have hxw : x.flags.wasVerified = true := by
      rw [hrest]
      exact hw
    refine ⟨?_, ?_, ?_, ?_, fun hk => ?_, fun hk => ?_⟩
    · rw [hrouter]
      exact hr.reserved
    · rw [hrouter]
      exact hr.spare
    · rw [hrouter]
      exact hr.unbound
    · rw [hrouter]
      exact hr.update
    · rw [hrouter] at hk
      obtain ⟨h1, h2, h3, h4, h5, h6, h7, h8⟩ := hr.known hk
      refine ⟨joined_verified hxw (by rw [hrouter]; exact hu), ?_, ?_, ?_, ?_, ?_, ?_, ?_⟩
      · rw [hrouter]
        exact h2
      · rw [hrouter, hrest]
        exact h3
      · rw [hrouter, hrest]
        exact h4
      · rw [hrouter]
        exact h5
      · rw [hrouter]
        exact h6
      · rw [hrouter, hrest]
        exact (hd hrec hk).symm
      · rw [hrouter, hrest]
        exact h8
    · rw [hrouter] at hk ⊢
      obtain ⟨h1, h2, h3, h4⟩ := hr.blank hk
      refine ⟨h1, h2, h3, ?_⟩
      simp only [h4]
      rfl
  · rw [hrest]
    exact ⟨h.config.own, h.config.tc, h.config.differ, h.config.ep, h.config.pan, h0, .inl h8, h.config.channel⟩
  · exact absurd hk (keyed_phase (by simp [hphase, Phase.code]) (by simp [hphase]))
  · rw [hrest]
    exact ⟨hslots.active, hslots.newer, hslots.differ, hslots.used, hslots.empty⟩
  · rw [hrest]
    exact hne
  · exact pending_settled h.pending hs (by simp [hphase]) (by simp [hphase]) (by simp [hphase]) (by rw [hrest])
      (by rw [hrest]) (by rw [hrest]) (by rw [hrest])
  · rw [hrest]
    exact hw
  · rw [hrest] at ha
    cases ha

/-- The flags with the first slot occupied and active. -/
def firstFlags : Flags := { Flags.zero with slot := fun i => !i }

theorem bindTc_rest (r : Record) (source : NwkFrame.Ieee) : bindTc build r source = { r with
    tc := if r.unbound build then source else r.tc
    router := (bindTc build r source).router } := by
  unfold bindTc
  split <;> rfl

theorem firstKey_rest (r : Record) (source : NwkFrame.Ieee) (m : Block) (q : UInt8) :
    firstKey build r source m q = { r with
      tc := if r.unbound build then source else r.tc
      nk := Function.update r.nk false m
      nf := Function.update r.nf false 0
      seq := Function.update r.seq false q
      flags := firstFlags
      phaseByte := ⟨.received, r.phaseByte.parent, r.phaseByte.timeoutPending⟩
      router := (firstKey build r source m q).router } := by
  have hbind := @bindTc_rest build ({ r with flags := firstFlags }.setPhase .received) source
  have hfirst : firstKey build r source m q =
      install build (bindTc build ({ r with flags := firstFlags }.setPhase .received) source) false m q := rfl
  rw [hfirst]
  generalize bindTc build ({ r with flags := firstFlags }.setPhase .received) source = y at hbind ⊢
  unfold install
  rw [hbind]
  rfl

theorem firstKey_router (r : Record) (source : NwkFrame.Ieee) (m : Block) (q : UInt8)
    (hrec : r.routerRecord build = true) :
    (firstKey build r source m q).router = { r.router with
      nf := Function.update r.router.nf false 0
      flags := { r.router.flags with unbound := if r.unbound build then false else r.router.flags.unbound } } := by
  have hu : Record.unbound build ({ r with flags := firstFlags }.setPhase .received) = r.unbound build := rfl
  have hr : Record.routerRecord build ({ r with flags := firstFlags }.setPhase .received) = true := hrec
  have hrb := (@bindTc_shape build ({ r with flags := firstFlags }.setPhase .received) source).record.trans hr
  unfold firstKey
  simp only
  change (install build (bindTc build ({ r with flags := firstFlags }.setPhase .received) source) false m q).router = _
  unfold install
  simp only [hrb, if_true]
  unfold bindTc
  rw [hu]
  cases r.unbound build <;> simp only [Bool.false_eq_true, if_false, if_true] <;> rfl

/-- The first network key: a relayed one also names the trust center. -/
theorem firstKey_valid {source : NwkFrame.Ieee} {m : Block} {q : UInt8} (h : r.Valid build n)
    (hp : r.phase = .associated) (hm : reused r m = false)
    (hsrc : r.unbound build = true → Identity source ∧ source ≠ r.own ∧ source ≠ r.router.ieee) :
    (firstKey build r source m q).Valid build ((firstKey build r source m q).size build) := by
  have hb := h.blank (.inl (by simp [hp, Phase.code]))
  obtain ⟨hz, hl, hpk, -⟩ := reused_false hm
  have hw : r.flags.wasVerified = false := by simp [hb.flags, Flags.zero]
  have hrest := @firstKey_rest build r source m q
  have hrouter := @firstKey_router build r source m q
  generalize firstKey build r source m q = x at hrest hrouter ⊢
  have hphase : x.phase = .received := by rw [hrest]; rfl
  have hver : x.version = r.version := by rw [hrest]
  have htc : x.tc = if r.unbound build then source else r.tc := by rw [hrest]
  have hown : x.own = r.own := by rw [hrest]
  have hconfig : x.ValidConfig := by
    refine ⟨by rw [hown]; exact h.config.own, ?_, ?_, by rw [hrest]; exact h.config.ep, by rw [hrest]; exact h.config.pan,
      by rw [hrest]; exact h.config.nonzero, by rw [hrest]; exact h.config.addr, by rw [hrest]; exact h.config.channel⟩
    · rw [htc]
      split
      · rename_i hu
        exact (hsrc hu).1
      · exact h.config.tc
    · rw [hown, htc]
      split
      · rename_i hu
        exact (hsrc hu).2.1.symm
      · exact h.config.differ
  have hflags : x.flags = firstFlags := by rw [hrest]
  have hslots : x.ValidSlots := by
    have h1 : x.nk = Function.update r.nk false m := by rw [hrest]
    have h2 : x.nf = Function.update r.nf false 0 := by rw [hrest]
    have h3 : x.seq = Function.update r.seq false q := by rw [hrest]
    have h4 : x.lk = r.lk ∧ x.pk = r.pk := by rw [hrest]; exact ⟨rfl, rfl⟩
    rw [Record.validSlots_iff, hflags, h1, h2, h3, h4.1, h4.2]
    refine ⟨rfl, by simp [firstFlags, Flags.zero], fun hall => ?_, fun i hi => ?_, fun i hi => ?_⟩
    · have := hall true
      simp [firstFlags] at this
    · obtain rfl : i = false := by simpa [firstFlags] using hi
      exact ⟨hz, hl, hpk⟩
    · obtain rfl : i = true := by simpa [firstFlags] using hi
      exact ⟨hb.nk true, hb.nf true, hb.seq true⟩
  refine ⟨h.reshape hver fun hrec hr => ?_, by rw [hrest]; exact h.magic, hconfig, by rw [hflags]; rfl,
    by simp [hphase, Phase.code], by rw [hrest]; exact h.link, fun hk => ?_, fun _ => hslots, .inr (.inr ?_), ?_,
    by simp [hphase], by simp [hflags, firstFlags, Flags.zero], by simp [hflags, firstFlags, Flags.zero],
    by simp [hphase], fun _ => by simp [hphase]⟩
  · have hrt := hrouter hrec
    cases hk : r.router.flags.known with
    | true =>
      -- A known router of an associated record is the unbound one.
      obtain ⟨h1, h2, h3, -, h5, h6, h7, h8⟩ := hr.known hk
      unfold Record.RouterJoined at h1
      have hj : build.routerJoin = true := by
        by_contra hj
        rw [if_neg hj] at h1
        simp [hw] at h1
      rw [if_pos hj] at h1
      have hun : r.router.flags.unbound = true := by
        by_contra hun
        rw [if_neg hun] at h1
        simp [hw, hp, Phase.code] at h1
      rw [if_pos hun] at h1
      have hu : r.unbound build = true := by simp [Record.unbound, hj, hrec, hun]
      rw [hu, if_pos rfl, h1.2.1] at hrt
      obtain ⟨-, hso, hsr⟩ := hsrc hu
      refine ⟨by rw [hrt]; exact hr.reserved, by rw [hrt], .inl hj, fun _ => ?_, fun _ => ?_, fun hn => ?_⟩
      · rw [hrt]
        exact hr.update (by rw [h1.2.1])
      · refine ⟨?_, by rw [hrt]; exact h2, by rw [hrt, hown]; exact h3, fun _ => ?_, by rw [hrt]; exact h5,
          by rw [hrt]; exact h6, by rw [hrt, hrest]; exact h7, fun i hi => ?_⟩
        · unfold Record.RouterJoined
          rw [if_pos hj, if_neg (by rw [hrt]; simp)]
          exact .inr ⟨by rw [hrt], by simp [hphase, Phase.code], .inl (by simp [hphase, Phase.code])⟩
        · rw [hrt, htc, if_pos hu]
          exact hsr.symm
        · obtain rfl : i = true := by
            rw [hflags] at hi
            simpa [firstFlags] using hi
          rw [hrt]
          exact h8 true (by simp [hb.flags, Flags.zero])
      · rw [hrt] at hn
        cases hn
    | false =>
      obtain ⟨h1, h2, h3, h4⟩ := hr.blank hk
      have hu : r.unbound build = false := by simp [Record.unbound, h4, RouterFlags.zero]
      have hnf : Function.update r.router.nf false 0 = r.router.nf := by
        rw [Function.update_eq_self_iff]
        exact (h3 false).symm
      rw [hu, if_neg (by simp), hnf] at hrt
      have hsame : x.router = r.router := hrt
      exact hr.carry hsame hown (by rw [htc, if_neg (by simp [hu])]) (fun hn => by simp [hk] at hn)
        (fun i hi => by simp [hb.flags, Flags.zero]) (fun hn => by simp [hk] at hn)
  · exact absurd hk (keyed_phase (by simp [hphase, Phase.code]) (by simp [hphase]))
  · obtain hx | ⟨hx, -⟩ | hx := h.address
    · simp [hp] at hx
    · simp [hp] at hx
    · rw [hrest]
      exact hx
  · have hxp : x.pk = zeroKey := by
      rw [hrest]
      exact hb.pk
    simp [Record.ValidPending, hphase, hflags, firstFlags, Flags.zero, hxp]

/-- An effect on a valid record. -/
theorem Effect.valid {v : Work} {e : Event} (h : Effect build v r' e) (hv : v.record.Valid build n)
    (hsec : v.secured ≠ .plain → v.record.network = true)
    (hsrc : v.apsSecured ≠ .plain → v.pending = false → v.record.unbound build = true →
      Identity v.info.source ∧ v.info.source ≠ v.record.own ∧ v.info.source ≠ v.record.router.ieee) :
    r'.Valid build (r'.size build) := by
  have hsame : v.record.Valid build (v.record.size build) := hv.sized ▸ hv
  cases h with
  | data => exact hsame
  | management => exact hsame
  | repeated => exact hsame
  | first ht hm _ hp => exact firstKey_valid hv hp hm (hsrc ht.secured ht.current)
  | rotate _ hs hm hn => exact rotated_valid hv hn hs hm
  | link _ hp hm => exact pendingKey_valid hv hp hm
  | confirm _ hp => exact confirmed_valid hv hp
  | switchSame => exact hsame
  | switch _ hn => exact switch_valid hv hn
  | leave rejoin _ hs => exact left_valid hv (hsec hs)
  | updateSame => exact hsame
  | update id pan _ _ _ _ hp => exact update_valid hv hp
  | refused => exact hsame
  | rejoined address _ hp h0 h8 hd => exact rejoinedRecord_valid hv hp h0 h8 hd
  | timeout status information _ hs hj ht =>
    exact keepalive_valid hv (hsec hs) rfl (fun hx => by simp at hx)

section Stages

variable {aes : Aes} {limits : Limits} {raw : Bytes} {w w' : Work}

theorem NwkStage.valid (h : NwkStage build aes limits r raw w) (hv : r.Valid build n) :
    w.record.Valid build (w.record.size build) ∧ (w.secured ≠ .plain → w.record.network = true) := by
  cases h with
  | plain _ hr _ hs =>
    rw [hr]
    exact ⟨hv.sized ▸ hv, fun hn => absurd hs hn⟩
  | secured x m type text _ _ _ _ _ hs _ _ hrouter _ _ _ hr =>
    obtain ⟨hslot, -⟩ := slotOf_some hs
    rw [hr]
    refine ⟨heardRecord_valid hv hslot fun hx => hrouter ▸ hx, fun _ => ?_⟩
    rw [heardRecord_eq]
    exact slot_network hslot

theorem ApsStage.valid (h : ApsStage build aes limits w w') (hp : w.pending = false)
    (hv : w.record.Valid build n) :
    w'.record.Valid build (w'.record.size build) ∧ w'.record.network = w.record.network ∧
    (w'.apsSecured ≠ .plain → w'.pending = false → w'.record.unbound build = true →
      Identity w'.info.source ∧ w'.info.source ≠ w'.record.own ∧ w'.info.source ≠ w'.record.router.ieee) := by
  cases h with
  | plain _ hr _ hs =>
    rw [hr]
    exact ⟨hv.sized ▸ hv, rfl, fun hn => absurd hs hn⟩
  | pending apdu text _ hr _ _ hpend =>
    rw [hr]
    exact ⟨hv.sized ▸ hv, rfl, fun _ hn => by simp [hpend] at hn⟩
  | admitted apdu text k _ hr _ _ _ hf =>
    rw [hr]
    refine ⟨admitted_valid hv, rfl, fun _ _ hu => ?_⟩
    have hu : w.record.unbound build = true := hu
    simp only [foreign, hu, if_true, Bool.or_eq_false_iff, beq_eq_false_iff_ne, Bool.not_eq_false',
      decide_eq_true_eq] at hf
    exact ⟨hf.1.1.2, hf.1.2, hf.2⟩

/-- Every frame that gets past the NWK layer leaves a valid record. -/
theorem Processed.valid {e : Result} (h : Processed build aes limits r raw e w) (hv : r.Valid build n) :
    w.record.Valid build (w.record.size build) := by
  cases h with
  | refused w₀ _ _ hn _ _ ha =>
    rw [ha.record]
    exact (hn.valid hv).1
  | rejected w₀ _ _ hn _ _ hp ha => exact (ha.valid hp (hn.valid hv).1).1
  | accepted w₀ v r' ev hn _ hp ha he =>
    obtain ⟨hv₀, hnet⟩ := hn.valid hv
    obtain ⟨hv₁, hsame, hsrc⟩ := ha.valid hp hv₀
    refine he.valid hv₁ (fun hs => ?_) hsrc
    rw [hsame]
    exact hnet (ha.passes.secured ▸ hs)

end Stages

/-- A leave that does not strand an unbound router parent. -/
def BoundLeave (build : Build) (c : Context) : Task build → Prop
  | .leave _ o => o.limits ≠ none → c.record.network = false → c.record.unbound build = false
  | _ => True

/-- Every call aims at a valid record. -/
theorem Changes.valid {c : Context} {t : Task build} (h : Changes build c t r)
    (hv : c.record.Valid build c.size) (hl : BoundLeave build c t) : r.Valid build (r.size build) := by
  cases h with
  | same => exact hv.sized ▸ hv
  | upgraded polls hb => exact upgraded_valid hv hb
  | remembered parent p polls hb hr => exact remembered_valid hv hr
  | selected router updateId polls hb hr hp hk => exact selected_valid hv hp (fun _ => hk) (by simp)
  | unselected router updateId polls hb hr hp => exact selected_valid hv hp (by simp) (fun _ => rfl)
  | associated shortAddress polls hp h0 h8 => exact associated_valid hv hp h0 h8
  | unbound routerAddress polls hb hp _ h0 h8 hd => exact unbound_valid hv hb hp h0 h8 hd
  | heard d raw limits e w _ _ hw => exact hw.valid hv
  | requested nwkSeq apsCounter o hp => exact requested_valid hv hp
  | verifying nwkSeq apsCounter o hp => exact verifying_valid hv hp
  | abandoned nwkSeq o ho =>
    cases hn : c.record.network with
    | true => exact left_valid hv hn
    | false => exact abandoned_valid hv hn (hl (ho.resolve_left (by simp [hn])) hn)
  | rejoining packet apsSecure o hn hw hk hp => exact rejoining_valid hv hn hw hk hp
  | departed packet apsSecure o rejoin hn => exact left_valid hv hn
  | awaiting packet apsSecure o hn hp hj => exact keepalive_valid hv hn rfl (fun _ => ⟨hp, hj⟩)

/-! Runs. -/

/-- A plan that only fills the caches aims at a valid record. -/
theorem Task.keeps_valid {c : Context} (t : Task build) (hv : c.record.Valid build c.size)
    (hd : (t.plan c).durable = none) :
    ((t.plan c).aim c.record).Valid build (((t.plan c).aim c.record).size build) := by
  cases t with
  | leave nwkSeq o =>
    obtain ⟨e, h, -⟩ | ⟨-, -, h⟩ | ⟨t, h, -, -, hc, -⟩ := @leave_cases build c nwkSeq o
    · rw [Task.plan, h]
      exact hv.sized ▸ hv
    · rw [Task.plan, h] at hd
      cases hd
    · rw [Task.plan, h, Plan.durable, hc] at hd
      cases hd
  | _ => exact (Task.leads c _).2.valid hv trivial

theorem Plan.Fits.aim {c : Context} {p : Plan} (h : p.Fits build c) (hd : p.durable = some r) :
    p.aim c.record = r := by
  cases h with
  | stop e => cases hd
  | store r' reply => exact Option.some.inj hd
  | stage r' image phase => exact Option.some.inj hd
  | keep r' reply => cases hd
  | transmit t hc =>
    have hcommit : t.commit = some r := hd
    simp [Plan.aim, (hc r hcommit).2.2, hcommit]

/-- What the caches take has the size of what was loaded. -/
theorem Plan.Fits.sized {c : Context} {p : Plan} (h : p.Fits build c) (hd : p.durable = none) :
    (p.aim c.record).size build = c.record.size build := by
  have volatile : ∀ x, Volatile build c.record x → x.size build = c.record.size build := fun x hx => by
    rw [hx.rest]
    rfl
  cases h with
  | stop e => rfl
  | store r' reply => cases hd
  | stage r' image phase => cases hd
  | keep r' reply hc => exact volatile _ hc.volatile
  | transmit t _ hp =>
    have hcommit : t.commit = none := hd
    cases hpend : t.pending with
    | none => simp [Plan.aim, hpend, hcommit]
    | some x =>
      simp only [Plan.aim, hpend, Option.some_or, Option.getD_some]
      exact volatile x (hp x hpend).volatile

/-- The live record of a valid saved one is valid. -/
def LiveValid (build : Build) (s : State) : Prop :=
  s.phase.used → (stored s).Valid build (held s.counter).length → (look build s).Valid build (held s.counter).length

theorem memory_held (h : s.counter.state = .ready) {data : Bytes} (hm : memory build s.counter = some data) :
    held s.counter = data := by
  rw [memory_ready h] at hm
  exact Option.some.inj hm

/-- What a finished call leaves on the journal and in the caches. -/
theorem Finished.valid {t : Task build} {reply : Reply} {log : List Sealing} (hk : Keys build issued s)
    (hu : s.phase.used) (hv : (stored s).Valid build (held s.counter).length)
    (hl : (look build s).Valid build (held s.counter).length) (hr : s'.counter.state = .ready)
    (h : Finished build (touched s) (t.plan (context build s)) reply log s') :
    (held s'.counter = held s.counter ∧ (look build s').Valid build (held s'.counter).length) ∨
    ∃ r, (t.plan (context build s)).durable = some r ∧ stored s' = r ∧ look build s' = r ∧
      held s'.counter = r.image build := by
  have hfits := plan_fits hk hu hv t
  have hheld : memory build s'.counter = memory build (touched s).counter → held s'.counter = held s.counter :=
    fun hm => memory_held hr (hm.trans (memory_ready (hk.used hu).ready))
  cases h with
  | aimed hlook hm _ =>
    cases hd : (t.plan (context build s)).durable with
    | none =>
      rw [hd] at hm
      have hsame := hheld hm
      have hval := t.keeps_valid hl hd
      refine .inl ⟨hsame, ?_⟩
      rw [hlook, hsame]
      have hsize : ((t.plan (context build s)).aim (look build s)).size build = (held s.counter).length := by
        rw [hl.sized]
        exact hfits.sized hd
      rw [← hsize]
      exact hval
    | some r =>
      rw [hd] at hm
      have himage : held s'.counter = r.image build := memory_held hr hm
      refine .inr ⟨r, rfl, ?_, hlook.trans (hfits.aim hd), himage⟩
      rw [stored, himage, decode_image (hfits.shaped hd)]
  | declined _ _ _ _ _ hlook hm =>
    have hsame := hheld hm
    refine .inl ⟨hsame, ?_⟩
    rw [hlook, hsame]
    exact hl

/-- A finished call that strands no router leaves a valid record. -/
theorem Finished.stored_valid {t : Task build} {reply : Reply} {log : List Sealing} (hk : Keys build issued s)
    (hu : s.phase.used) (hv : (stored s).Valid build (held s.counter).length)
    (hl : (look build s).Valid build (held s.counter).length) (hr : s'.counter.state = .ready)
    (hb : BoundLeave build (context build s) t)
    (h : Finished build (touched s) (t.plan (context build s)) reply log s') :
    (stored s').Valid build (held s'.counter).length := by
  obtain ⟨hsame, -⟩ | ⟨r, hd, hst, -, himage⟩ := h.valid hk hu hv hl hr
  · rw [stored, hsame]
    exact hv
  · rw [hst, himage, image_length]
    exact ((t.leads (context build s)).1 r hd).valid hl hb

/-- In every state reached, a valid saved record is a valid live one. -/
theorem step_liveValid (hk : Keys build issued s) (h : LiveValid build s) (op : Op build) :
    LiveValid build (step build s op).2 := by
  obtain ⟨hk', hm⟩ := step_moved hk op
  generalize (step build s op).1 = rep, (step build s op).2 = s' at hk' hm
  intro hu' hv'
  cases hm with
  | still op reply _ hs =>
    obtain ⟨e, -, rfl | rfl⟩ := hs <;> exact h hu' hv'
  | format => exact absurd rfl hu'.2
  | opened e _ hc hmem ho =>
    cases ho with
    | empty hp => simp [hp, Phase.used, Phase.code] at hu'
    | found data hd hv hp hl hr =>
      rw [hl, memory_held (hk'.used hu').ready (hmem.trans hd)]
      exact hv
    | storage hp => exact absurd hp hu'.2
    | format data _ _ hp => exact absurd hp hu'.2
  | provisioned config installCode nwkFloor apsFloor call lk reply _ hp _ _ hf =>
    cases hf with
    | lost d _ hs =>
      subst hs
      simp [cold, Phase.used, Phase.code] at hu'
    | failed _ hp => exact absurd hp hu'.2
    | stored _ _ _ hl hmem =>
      have hst : stored s' = SecurityKeys.provisioned config lk := by
        rw [stored, memory_held (hk'.used hu').ready hmem, decode_image (provisioned_shaped config lk)]
      rw [hl, ← hst]
      exact hv'
  | recommissioned hb _ _ hp => simp [hp, Phase.used, Phase.code] at hu'
  | acted t _ _ hu hv _ ha =>
    cases ha with
    | lost d _ hs =>
      subst hs
      simp [cold, Phase.used, Phase.code] at hu'
    | failed _ hp => exact absurd hp hu'.2
    | finished reply _ _ _ hr hf =>
      obtain ⟨-, hl⟩ | ⟨r, -, hst, hlook, -⟩ := hf.valid hk hu hv (h hu hv) hr
      · exact hl
      · rw [hlook, ← hst]
        exact hv'
  | reset => simp [cold, Phase.used, Phase.code] at hu'

/-- Every call of the run keeps a router parent bound when it leaves, and no
install code stands for the blank link key. -/
def Careful (build : Build) (s : State) : Op build → Prop
  | .task t => s.phase.used → BoundLeave build (context build s) t
  | .provision _ installCode _ _ call => ¬ Provides build installCode call zeroKey
  | _ => True

/-- Every record the module has written, and every one it is about to write, is
valid for its size, and no load or start faults on it. -/
structure Closed (build : Build) (s : State) : Prop where
  saved : ∀ data, memory build s.counter = some data → (Record.decode data).Valid build data.length
  next : ∀ t r, s.phase.used → BoundLeave build (context build s) t →
    (t.plan (context build s)).durable = some r → r.Valid build (r.size build)
  loads : (load build s).1 ≠ .error .format
  opens : (keysOpen build s).1.result ≠ .format

/-- What a run keeps: the saved record is valid, the live one with it, and no format fault is latched. -/
structure Wellkept (build : Build) (issued : Issued) (s : State) : Prop where
  keys : Keys build issued s
  live : LiveValid build s
  saved : ∀ data, memory build s.counter = some data → (Record.decode data).Valid build data.length
  clean : ¬ (s.phase = .failed ∧ s.result = .format)

theorem provisioned_valid {config : Config} {lk : Block} (hc : (provisioned config zeroKey).ValidConfig)
    (hl : lk ≠ zeroKey) : (provisioned config lk).Valid build 112 where
  shape := .inl ⟨rfl, rfl⟩
  magic := rfl
  config := ⟨hc.own, hc.tc, hc.differ, hc.ep, hc.pan, hc.nonzero, hc.addr, hc.channel⟩
  spare := rfl
  phases := by simp [provisioned, Record.phase, Phase.code]
  link := hl
  blank := fun _ => ⟨rfl, fun _ => rfl, rfl, fun _ => rfl, fun _ => rfl, rfl, rfl⟩
  slots := fun hk => absurd (.inl (by simp [provisioned, Record.phase, Phase.code])) hk
  address := .inl rfl
  pending := by simp [Record.ValidPending, provisioned, Record.phase, Flags.zero]
  verified := by simp [provisioned, Record.phase]
  late := by simp [provisioned, Flags.zero]
  rejoin := by simp [provisioned, Flags.zero]
  rejoining := by simp [provisioned, Record.phase]
  timeout := by simp [provisioned]

theorem Wellkept.stored_valid (h : Wellkept build issued s) (hu : s.phase.used) :
    (stored s).Valid build (held s.counter).length :=
  h.saved _ (memory_ready (h.keys.used hu).ready)

theorem Wellkept.look_valid (h : Wellkept build issued s) (hu : s.phase.used) :
    (look build s).Valid build (held s.counter).length := h.live hu (h.stored_valid hu)

theorem image_valid (hs : Shaped build r) (hv : r.Valid build (r.size build)) :
    (Record.decode (r.image build)).Valid build (r.image build).length := by
  rw [decode_image hs, image_length]
  exact hv

theorem step_wellkept (h : Wellkept build issued s) (op : Op build) (hc : Careful build s op) :
    Wellkept build (issued ++ stamps (step build s op).1.sealed) (step build s op).2 := by
  obtain ⟨hk', hm⟩ := step_moved h.keys op
  refine ⟨hk', step_liveValid h.keys h.live op, fun data hd => ?_, fun hf => ?_⟩
  · cases hm.saves h.keys with
    | none hn => simp [hn] at hd
    | same hs => exact h.saved data (hs ▸ hd)
    | changed t r ho hu hv _ hs hx hi =>
      subst ho
      obtain rfl := Option.some.inj (hd.symm.trans hi)
      exact image_valid hs (hx.valid (h.look_valid hu) (hc hu))
    | fresh config installCode nwkFloor apsFloor call lk ho hu hv hp hi =>
      subst ho
      obtain rfl := Option.some.inj (hd.symm.trans hi)
      have hlk : lk ≠ zeroKey := fun hz => hc (hz ▸ hp)
      have hsize : (provisioned config lk).size build = 112 := by
        simp [Record.size, Record.routerRecord, provisioned]
      refine image_valid (provisioned_shaped config lk) ?_
      rw [hsize]
      exact provisioned_valid hv hlk
  · generalize (step build s op).1 = rep, (step build s op).2 = s' at hk' hm hf
    cases hm with
    | still op reply _ hs =>
      obtain ⟨e, he, rfl | rfl⟩ := hs
      · exact h.clean ⟨hf.1, (he hf.1).symm.trans hf.2⟩
      · exact h.clean ⟨hf.1, (he hf.1).symm.trans hf.2⟩
    | format _ hu hv => exact hv (h.stored_valid hu)
    | opened e _ _ _ ho =>
      cases ho with
      | empty hp => simp [hp] at hf
      | found data _ hv hp =>
        have := hv.phases
        rw [← hp, hf.1] at this
        simp [Phase.code] at this
      | storage _ hr => simp [hr] at hf
      | format data hd hv => exact hv (h.saved data hd)
    | provisioned config installCode nwkFloor apsFloor call lk reply _ _ _ _ hx =>
      cases hx with
      | lost d _ hs =>
        subst hs
        simp [cold] at hf
      | failed _ _ hr => simp [hr] at hf
      | stored _ hp => simp [hp] at hf
    | recommissioned hb _ _ hp => simp [hp] at hf
    | acted t _ _ _ _ _ ha =>
      cases ha with
      | lost d _ hs =>
        subst hs
        simp [cold] at hf
      | failed _ _ hr => simp [hr] at hf
      | finished reply _ hu' => exact hu'.2 hf.1
    | reset => simp [cold] at hf

theorem Wellkept.closed (h : Wellkept build issued s) : Closed build s where
  saved := h.saved
  next := fun t r hu hl hd => ((t.leads (context build s)).1 r hd).valid (h.look_valid hu) hl
  loads := fun he => by
    unfold load at he
    split at he
    · rename_i hf
      exact h.clean ⟨hf, Except.error.inj he⟩
    · rename_i hf
      split at he
      · cases he
      · rename_i hlow
        have hu : s.phase.used := ⟨not_lt.1 hlow, hf⟩
        obtain ⟨hn, -⟩ | ⟨-, -, hl⟩ | ⟨-, hv, -⟩ := load_cases h.keys
        · exact hn hu
        · unfold load at hl
          rw [if_neg hf, if_neg hlow] at hl
          rw [hl] at he
          cases he
        · exact hv (h.stored_valid hu)
  opens := fun he => by
    by_cases hc : s.phase = .cold
    · obtain ⟨e, s', hopen, -, -, ho⟩ := keysOpen_opened h.keys hc
      rw [hopen] at he
      have he : e = .format := he
      subst he
      cases ho with
      | format data hd hv => exact hv (h.saved data hd)
    · unfold keysOpen at he
      rw [if_pos hc] at he
      cases he

theorem wellkept_cold {d : Device} (hd : NvRecord.view build.recordMax d = .empty) :
    Wellkept build (stamps (log [])) (cold d) := by
  refine ⟨run_keys d [], fun hu => ?_, fun data hm => ?_, by simp [cold]⟩
  · simp [cold, Phase.used, Phase.code] at hu
  · have hnone : memory build (cold d).counter = none := by
      change memory build (SecurityCounter.cold d) = none
      rw [memory_cold]
      simp [kept, hd]
    simp [hnone] at hm

/-- In a run from an empty journal whose calls never leave an unbound router
parent stranded and whose install codes derive a link key that is not blank,
every record written is valid for its size, and no load and no start faults on it. -/
theorem records_closed (build : Build) (d : Device) (ops : List (Op build))
    (hd : NvRecord.view build.recordMax d = .empty)
    (h : Runs.Meets (step build) (Careful build) (cold d) ops) :
    Runs.Throughout (step build) (Closed build) (cold d) ops := by
  refine Runs.throughout_of_invariant (step build) (Careful build) (Closed build)
    (fun s => ∃ issued, Wellkept build issued s) (fun s op ⟨issued, hw⟩ hc => ⟨_, step_wellkept hw op hc⟩)
    (fun s ⟨issued, hw⟩ => hw.closed) (cold d) ⟨_, wellkept_cold hd⟩ ops h

/-- Parent recovery with router joining and the default link key. -/
def joining : Build := ⟨true, true, false, true, fun _ => rfl, fun _ => rfl⟩

/-- A device that associated, and may still leave. -/
def associatedJoin : List (Op joining) := [.keysOpen, .provision (some sampleConfig) none 0 0 flatCall,
  .task (.associate 7 5)]

/-- Leaving without a router parent keeps the records closed. -/
theorem records_closed_associated :
    NvRecord.view joining.recordMax NvRecord.blankDevice = .empty ∧
    Runs.Meets (step joining) (Careful joining) (cold NvRecord.blankDevice)
      (associatedJoin ++ [.task (.leave 1 sampleOutput)]) ∧
    Runs.Throughout (step joining) (Closed joining) (cold NvRecord.blankDevice)
      (associatedJoin ++ [.task (.leave 1 sampleOutput)]) := by
  have hmeets : Runs.Meets (step joining) (Careful joining) (cold NvRecord.blankDevice)
      (associatedJoin ++ [.task (.leave 1 sampleOutput)]) := by
    refine ⟨trivial, fun h => ?_, fun _ => trivial, fun _ _ _ => ?_, trivial⟩
    · simp only [Provides, joining, if_true] at h
      exact absurd h (by decide)
    · decide +kernel
  exact ⟨NvRecord.view_blank, hmeets,
    records_closed joining NvRecord.blankDevice _ NvRecord.view_blank hmeets⟩

/-- The same device behind a router it has not identified yet. -/
def unboundJoin : List (Op joining) := associatedJoin ++ [.task (.routerParent 9 5 rfl)]

/-- A staged, idle device without a network key whose leave would not be valid. -/
def Stranded (build : Build) (s : State) : Prop :=
  s.phase = .associated ∧ idleStart s = true ∧ (stored s).Valid build (held s.counter).length ∧
  (look build s).network = false ∧
  ¬ (leftRecord (look build s) false).Valid build ((leftRecord (look build s) false).size build)

instance (build : Build) (s : State) : Decidable (Stranded build s) := inferInstanceAs (Decidable (_ ∧ _))

theorem unboundJoin_stranded :
    Stranded joining (Runs.run (step joining) (cold NvRecord.blankDevice) unboundJoin).2 := by
  decide +kernel

/-- Its leave breaks the closure. -/
theorem Stranded.leave {o : Output} {limits : Limits} (h : Stranded build s) (hk : Keys build issued s)
    (ho : o.limits = some limits) (hp : o.call.polls ≠ 0) :
    ¬ Closed build (step build s (.task (.leave 1 o))).2 := by
  obtain ⟨hphase, hi, hv, hn, hbad⟩ := h
  have hu : s.phase.used := by simp [hphase, Phase.used, Phase.code]
  have hplan : (Task.leave 1 o : Task build).plan (context build s) =
      .store (leftRecord (look build s) false) { Reply.of .ok with frame := some [] } := by
    simp only [Task.plan, SecurityKeys.leave, ho, context, hn]
    rfl
  obtain ⟨hin, hs⟩ := @store_inForce build issued s 31 (.leave 1 o) _ _ hk hu hv (idleStart_idle hk hu hi) hp hplan
  intro hclosed
  have hvalid := hclosed.saved _ (memory_ready ((step_moved hk _).1.used hin.used).ready)
  rw [hin.held, decode_image hs, image_length] at hvalid
  exact hbad hvalid

/-- A device that leaves before its router parent is identified saves a record
it never loads again. -/
theorem records_closed_unbound : ¬ ∀ (build : Build) (d : Device) (ops : List (Op build)),
    NvRecord.view build.recordMax d = .empty →
    Runs.Throughout (step build) (Closed build) (cold d) ops := by
  intro hall
  exact unboundJoin_stranded.leave (run_keys NvRecord.blankDevice unboundJoin) rfl (by decide)
    (Runs.Throughout.snoc (step joining) (hall joining NvRecord.blankDevice
      (unboundJoin ++ [.task (.leave 1 sampleOutput)]) NvRecord.view_blank))

end SecurityKeys
