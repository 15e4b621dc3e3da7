import Cc2530Zigbee.Runs
import Cc2530Zigbee.ZclDispatch

/-!
# The Identify server

`zcl_identify.c`. IdentifyTime counts down in seconds; the context keeps the
milliseconds of the current second as its phase. Every call first catches up with
the clock. Both together are one countdown in milliseconds, from which seconds and
phase are read off.
-/
namespace Zcl.Identify
open Octets

/-- The context of the server. -/
structure Context where
  stamp : UInt32
  remaining : UInt16
  phase : UInt16
  deriving DecidableEq, Repr

def advance (ctx : Context) (now : UInt32) : Except Codec Context :=
  let elapsed := now - ctx.stamp
  if elapsed ≥ 0x80000000 ∨ ctx.phase ≥ 1000 ∨ (ctx.remaining = 0 ∧ ctx.phase ≠ 0) then .error .invalidValue
  else if ctx.remaining ≠ 0 then
    let elapsed := elapsed + ctx.phase.toUInt32
    let seconds := elapsed / 1000
    if seconds ≥ ctx.remaining.toUInt32 then .ok ⟨now, 0, 0⟩
    else .ok ⟨now, ctx.remaining - seconds.toUInt16, (elapsed - seconds * 1000).toUInt16⟩
  else .ok { ctx with stamp := now }

def idInit (now : UInt32) : Context := ⟨now, 0, 0⟩

def idTick (ctx : Context) (now : UInt32) : Codec × Context :=
  match advance ctx now with
  | .ok next => (.ok, next)
  | .error e => (e, ctx)

/-- The two attributes the global commands see. -/
def view (next : Context) : AttributeSet where
  attributes := [⟨0, 1, ⟨typeUint16, 0, put16 next.remaining⟩⟩, ⟨0xfffd, 1, ⟨typeUint16, 0, [2, 0]⟩⟩]
  side := 0
  manufacturerSpecific := 0
  manufacturerCode := 0

/-- Global commands; only IdentifyTime can be written. -/
def global (next : Context) (request : Bytes) (frame : FrameInfo) (response : Bytes) (capacity : Nat)
    (info : DispatchInfo) : Codec × Context × Bytes × DispatchInfo :=
  if frame.header.type = frameGlobal ∧ ¬ has frame.header.flags flagManufacturerSpecific ∧
      writeCommand frame.header.commandId then
    match wrHandle (view next) frame (request.drop frame.payloadOffset) response capacity .zero (some ⟨0, 0, false⟩) with
    | (rc, response, info, edit) =>
      if rc = .ok ∧ edit.any Edit.written then
        (rc, { next with remaining := (edit.map Edit.value).getD 0, phase := 0 }, response, info)
      else (rc, next, response, info)
  else
    match dispatchUnicast (view next) request response capacity info with
    | (rc, response, info) => (rc, next, response, info)

/-- The answer to a command of the cluster: the state it leaves, and the header and the
payload of the reply unless there is none. -/
def clusterAnswer (next : Context) (h : Header) (payload : Bytes) : Context × Option (Header × Bytes) :=
  let flags := flagServerToClient ||| flagDisableDefaultResponse
  let reply := { h with type := frameGlobal, flags := flags, commandId := commandDefaultResponse }
  if h.commandId = 0 then
    if payload.length < 2 then (next, some (reply, [h.commandId, statusMalformedCommand]))
    else
      let next := { next with remaining := u16At payload 0, phase := 0 }
      if has h.flags flagDisableDefaultResponse then (next, none) else (next, some (reply, [h.commandId, statusSuccess]))
  else if next.remaining = 0 then (next, none)
  else (next, some ({ reply with type := frameClusterSpecific, commandId := 0 }, put16 next.remaining))

def idRx (ctx : Context) (now : UInt32) (request response : Bytes) (capacity : Nat) (info : DispatchInfo) :
    Codec × Context × Bytes × DispatchInfo :=
  match advance ctx now with
  | .error e => (e, ctx, response, info)
  | .ok next =>
    match frameDecode request with
    | .error e => (e, ctx, response, info)
    | .ok frame =>
      let h := frame.header
      if has h.flags flagServerToClient then (.unsupportedContext, ctx, response, info)
      else if h.type ≠ frameClusterSpecific ∨ has h.flags flagManufacturerSpecific ∨ h.commandId > 1 then
        match global next request frame response capacity .zero with
        | (.ok, next, response, candidate) => (.ok, next, response, candidate)
        | (e, _, response, _) => (e, ctx, response, info)
      else
        let candidate := { DispatchInfo.zero with sequence := h.sequence }
        match clusterAnswer next h (request.drop frame.payloadOffset) with
        | (next, none) => (.ok, next, response, { candidate with kind := .silent })
        | (next, some (reply, payload)) =>
          match frameEncodeInto reply payload response capacity 0 with
          | (.ok, response, length) =>
            let candidate := { candidate with length := length.toNat, commandId := reply.commandId }
            (.ok, next, response,
              if reply.type = frameGlobal then
                { candidate with
                  defaultCommand := byteAt payload 0
                  defaultStatus := byteAt payload 1
                  defaultRawStatus := byteAt payload 1 }
              else candidate)
          | (e, response, _) => (e, ctx, response, info)

/-! ## The countdown -/

/-- A context the server can be in: the phase is within its second, and an idle server has none. -/
structure Steady (ctx : Context) : Prop where
  phase : ctx.phase.toNat < 1000
  idle : ctx.remaining = 0 → ctx.phase = 0

/-- The milliseconds left. -/
def left (ctx : Context) : Nat := 1000 * ctx.remaining.toNat - ctx.phase.toNat

theorem steady_iff (ctx : Context) :
    Steady ctx ↔ ¬(ctx.phase ≥ 1000 ∨ (ctx.remaining = 0 ∧ ctx.phase ≠ 0)) := by
  have hphase : ctx.phase ≥ 1000 ↔ 1000 ≤ ctx.phase.toNat := UInt16.le_iff_toNat_le
  constructor
  · rintro ⟨hp, hi⟩ (hge | ⟨hz, hne⟩)
    · have := hphase.1 hge
      omega
    · exact hne (hi hz)
  · intro h
    obtain ⟨hp, hi⟩ := not_or.1 h
    refine ⟨Nat.lt_of_not_le fun hle => hp (hphase.2 hle), fun hz => ?_⟩
    by_contra hne
    exact hi ⟨hz, hne⟩

/-- Seconds and phase are read off the milliseconds left. -/
theorem Steady.read {ctx : Context} (h : Steady ctx) :
    ctx.remaining.toNat = (left ctx + 999) / 1000 ∧ ctx.phase.toNat = 1000 * ctx.remaining.toNat - left ctx := by
  have hphase := h.phase
  unfold left
  by_cases hz : ctx.remaining = 0
  · rw [h.idle hz, hz]
    simp
  · have hne : ctx.remaining.toNat ≠ 0 := fun heq => hz (UInt16.toNat_inj.1 heq)
    omega

/-- What one catch-up does. -/
structure Advanced (ctx : Context) (now : UInt32) (next : Context) : Prop where
  steady : Steady next
  stamp : next.stamp = now
  left : left next = left ctx - (now - ctx.stamp).toNat

theorem advance_spec (ctx : Context) (now : UInt32) :
    (Steady ctx ∧ (now - ctx.stamp).toNat < 2 ^ 31 ∧ ∃ next, advance ctx now = .ok next ∧ Advanced ctx now next) ∨
      (¬(Steady ctx ∧ (now - ctx.stamp).toNat < 2 ^ 31) ∧ advance ctx now = .error .invalidValue) := by
  have hhalf : now - ctx.stamp ≥ 0x80000000 ↔ 2 ^ 31 ≤ (now - ctx.stamp).toNat := UInt32.le_iff_toNat_le
  unfold advance
  simp only
  by_cases hbad : now - ctx.stamp ≥ 0x80000000 ∨ ctx.phase ≥ 1000 ∨ (ctx.remaining = 0 ∧ ctx.phase ≠ 0)
  · refine .inr ⟨?_, if_pos hbad⟩
    rintro ⟨hsteady, hlt⟩
    rcases hbad with hge | hbad
    · have := hhalf.1 hge
      omega
    · exact (steady_iff ctx).1 hsteady hbad
  · rw [if_neg hbad]
    obtain ⟨hnot, hrest⟩ := not_or.1 hbad
    have hsteady := (steady_iff ctx).2 hrest
    have hlt : (now - ctx.stamp).toNat < 2 ^ 31 := Nat.lt_of_not_le fun hle => hnot (hhalf.2 hle)
    have hphase := hsteady.phase
    refine .inl ⟨hsteady, hlt, ?_⟩
    generalize hd : now - ctx.stamp = elapsed at hlt ⊢
    -- At most 0x7fffffff + 999: the sum does not overflow.
    have htotal : (elapsed + ctx.phase.toUInt32).toNat = elapsed.toNat + ctx.phase.toNat := by
      rw [UInt32.toNat_add, UInt16.toNat_toUInt32]
      omega
    have hseconds : ((elapsed + ctx.phase.toUInt32) / 1000).toNat = (elapsed.toNat + ctx.phase.toNat) / 1000 := by
      rw [UInt32.toNat_div, htotal]
      rfl
    by_cases hz : ctx.remaining = 0
    · rw [if_neg (not_not.2 hz)]
      refine ⟨_, rfl, ⟨hsteady.phase, hsteady.idle⟩, rfl, ?_⟩
      simp [left, hz]
    · rw [if_pos hz]
      have hle : (elapsed + ctx.phase.toUInt32) / 1000 ≥ ctx.remaining.toUInt32 ↔
          ctx.remaining.toNat ≤ (elapsed.toNat + ctx.phase.toNat) / 1000 := by
        rw [ge_iff_le, UInt32.le_iff_toNat_le, UInt16.toNat_toUInt32, hseconds]
      by_cases hend : (elapsed + ctx.phase.toUInt32) / 1000 ≥ ctx.remaining.toUInt32
      · rw [if_pos hend]
        have := hle.1 hend
        refine ⟨_, rfl, ⟨by simp, fun _ => rfl⟩, rfl, ?_⟩
        simp only [left, UInt16.toNat_zero, hd]
        omega
      · rw [if_neg hend]
        have hmore : (elapsed.toNat + ctx.phase.toNat) / 1000 < ctx.remaining.toNat :=
          Nat.lt_of_not_le fun hge => hend (hle.2 hge)
        have hmax := ctx.remaining.toNat_lt
        have hremaining : (ctx.remaining - ((elapsed + ctx.phase.toUInt32) / 1000).toUInt16).toNat =
            ctx.remaining.toNat - (elapsed.toNat + ctx.phase.toNat) / 1000 := by
          rw [UInt16.toNat_sub_of_le]
          · rw [UInt32.toNat_toUInt16, hseconds, Nat.mod_eq_of_lt (by omega)]
          · rw [UInt16.le_iff_toNat_le, UInt32.toNat_toUInt16, hseconds, Nat.mod_eq_of_lt (by omega)]
            omega
        have hrest : ((elapsed + ctx.phase.toUInt32) - (elapsed + ctx.phase.toUInt32) / 1000 * 1000).toUInt16.toNat =
            (elapsed.toNat + ctx.phase.toNat) % 1000 := by
          have hmul : ((elapsed + ctx.phase.toUInt32) / 1000 * 1000).toNat =
              (elapsed.toNat + ctx.phase.toNat) / 1000 * 1000 := by
            rw [UInt32.toNat_mul, hseconds]
            simp only [UInt32.reduceToNat]
            omega
          rw [UInt32.toNat_toUInt16, UInt32.toNat_sub_of_le]
          · rw [hmul, htotal]
            omega
          · rw [UInt32.le_iff_toNat_le, hmul, htotal]
            omega
        refine ⟨_, rfl, ⟨?_, ?_⟩, rfl, ?_⟩
        · simp only [hrest]
          omega
        · intro hzero
          have := congrArg UInt16.toNat hzero
          simp only [hremaining, UInt16.toNat_zero] at this
          omega
        · simp only [left, hremaining, hrest, hd]
          omega

/-- Catching up in two steps is catching up in one. -/
theorem tick_compose (ctx : Context) (t1 t2 : UInt32) (h : (t1 - ctx.stamp).toNat + (t2 - t1).toNat < 2 ^ 31) :
    (idTick (idTick ctx t1).2 t2).2 = (idTick ctx t2).2 := by
  have hsum : (t2 - ctx.stamp).toNat = (t1 - ctx.stamp).toNat + (t2 - t1).toNat := by
    have h0 := ctx.stamp.toNat_lt
    have h1 := t1.toNat_lt
    have h2 := t2.toNat_lt
    simp only [UInt32.toNat_sub] at h ⊢
    omega
  rcases advance_spec ctx t1 with ⟨hsteady, _, next1, heq1, hadv1⟩ | ⟨hbad, heq1⟩
  · rcases advance_spec ctx t2 with ⟨_, _, next, heq, hadv⟩ | ⟨hbad, _⟩
    · rcases advance_spec next1 t2 with ⟨_, _, next2, heq2, hadv2⟩ | ⟨hbad, _⟩
      · simp only [idTick, heq, heq1, heq2]
        -- Both countdowns have the same milliseconds left.
        have hleft : left next2 = left next := by
          rw [hadv2.left, hadv1.left, hadv.left, hadv1.stamp, hsum]
          omega
        obtain ⟨hr2, hp2⟩ := hadv2.steady.read
        obtain ⟨hr, hp⟩ := hadv.steady.read
        have hremaining : next2.remaining = next.remaining := by
          apply UInt16.toNat_inj.1
          rw [hr2, hr, hleft]
        have hphase : next2.phase = next.phase := by
          apply UInt16.toNat_inj.1
          rw [hp2, hp, hleft, hremaining]
        have hstamp : next2.stamp = next.stamp := by rw [hadv2.stamp, hadv.stamp]
        cases next2
        cases next
        simp_all
      · exact absurd ⟨hadv1.steady, by rw [hadv1.stamp]; omega⟩ hbad
    · exact absurd ⟨hsteady, by omega⟩ hbad
  · rcases advance_spec ctx t2 with ⟨hsteady, _, _⟩ | ⟨_, heq⟩
    · exact absurd ⟨hsteady, by omega⟩ hbad
    · simp only [idTick, heq, heq1]

/-! ## Calls -/

/-- What a request does once its time is accepted: it fails and leaves everything, or lets
the clock go on, or sets the time; in the last case it was no error. -/
inductive Served (ctx : Context) (now : UInt32) (response : Bytes) (info : DispatchInfo) :
    Codec × Context × Bytes × DispatchInfo → Prop
  | refused (e : Codec) (hne : e ≠ .ok) : Served ctx now response info (e, ctx, response, info)
  | aged (next : Context) (hadvance : advance ctx now = .ok next) (response' : Bytes) (info' : DispatchInfo) :
      Served ctx now response info (.ok, next, response', info')
  | set (next : Context) (hadvance : advance ctx now = .ok next) (time : UInt16) (response' : Bytes) (info' : DispatchInfo)
      (hstatus : info'.defaultStatus = statusSuccess) :
      Served ctx now response info (.ok, { next with remaining := time, phase := 0 }, response', info')

/-- What a global command does to the state behind the clock. -/
theorem global_cases (next : Context) (request : Bytes) (frame : FrameInfo) (response : Bytes) (capacity : Nat)
    (info : DispatchInfo) :
    (∃ e next' info', e ≠ .ok ∧ global next request frame response capacity info = (e, next', response, info')) ∨
    (∃ response' info', global next request frame response capacity info = (.ok, next, response', info')) ∨
    ∃ time response' info', info'.defaultStatus = statusSuccess ∧
      global next request frame response capacity info = (.ok, { next with remaining := time, phase := 0 }, response', info') := by
  unfold global
  split
  · rcases wrHandle_cases (view next) frame (request.drop frame.payloadOffset) response capacity .zero
        (some ⟨0, 0, false⟩) with
      ⟨e, info', hne, heq⟩ | ⟨rc, s, hs, ⟨_, _, heq⟩ | ⟨_, hrc, answer, octets, hanswer, _, heq⟩⟩
    · refine .inl ⟨e, next, info', hne, ?_⟩
      simp only [heq]
      rw [if_neg (fun h => hne h.1)]
    · simp only [heq]
      split
      · exact .inr (.inr ⟨_, _, _, rfl, rfl⟩)
      · exact .inr (.inl ⟨_, _, rfl⟩)
    · simp only [heq]
      split
      next hwritten =>
        refine .inr (.inr ⟨_, _, _, ?_, rfl⟩)
        have hwrote : answer.wrote = true := by simpa [finishEdit] using hwritten.2
        have hok : rc = .ok := by
          by_contra hne
          rw [hanswer, writeAnswer, if_pos hne] at hwrote
          cases hwrote
        rw [hanswer, writeAnswer, if_neg (not_not.2 hok)]
        rfl
      · exact .inr (.inl ⟨_, _, rfl⟩)
  · rcases dispatchUnicast_settled (view next) request response capacity info with ⟨e, hne, heq⟩ | ⟨response', info', heq⟩
    · simp only [heq]
      exact .inl ⟨e, next, info, hne, rfl⟩
    · simp only [heq]
      exact .inr (.inl ⟨_, _, rfl⟩)

theorem clusterAnswer_cases (next : Context) (h : Header) (payload : Bytes) :
    (∃ reply, clusterAnswer next h payload = (next, reply)) ∨
    ∃ time reply, clusterAnswer next h payload = ({ next with remaining := time, phase := 0 }, reply) ∧
      ∀ header body, reply = some (header, body) → byteAt body 1 = statusSuccess := by
  unfold clusterAnswer
  simp only
  split
  · split
    · exact .inl ⟨_, rfl⟩
    · split
      · exact .inr ⟨_, _, rfl, fun _ _ heq => by cases heq⟩
      · refine .inr ⟨_, _, rfl, fun header body heq => ?_⟩
        cases heq
        rfl
  · split
    · exact .inl ⟨_, rfl⟩
    · exact .inl ⟨_, rfl⟩

theorem idRx_served (ctx : Context) (now : UInt32) (request response : Bytes) (capacity : Nat) (info : DispatchInfo) :
    Served ctx now response info (idRx ctx now request response capacity info) := by
  unfold idRx
  rcases advance_spec ctx now with ⟨_, _, next, hadvance, _⟩ | ⟨_, hadvance⟩
  · simp only [hadvance]
    split
    next e he => exact .refused e fun hok => frameDecode_error request (hok ▸ he)
    next frame _ =>
      split
      · exact .refused _ (by decide)
      split
      · rcases global_cases next request frame response capacity .zero with
          ⟨e, next', info', hne, heq⟩ | ⟨response', info', heq⟩ | ⟨time, response', info', hstatus, heq⟩
        · simp only [heq]
          cases e <;> first
            | exact absurd rfl hne
            | exact .refused _ (by decide)
        · simp only [heq]
          exact .aged next hadvance response' info'
        · simp only [heq]
          exact .set next hadvance time response' info' hstatus
      · rcases clusterAnswer_cases next frame.header (request.drop frame.payloadOffset) with
          ⟨reply, heq⟩ | ⟨time, reply, heq, hreply⟩
        · cases reply with
          | none =>
            simp only [heq]
            exact .aged next hadvance response _
          | some reply =>
            obtain ⟨header, payload⟩ := reply
            simp only [heq]
            rcases frameEncodeInto_cases header payload response capacity 0 with ⟨octets, _, henc⟩ | ⟨e, hne, _, henc⟩
            · simp only [henc]
              exact .aged next hadvance _ _
            · simp only [henc]
              cases e <;> first
                | exact absurd rfl hne
                | exact .refused _ (by decide)
        · cases reply with
          | none =>
            simp only [heq]
            exact .set next hadvance time response _ rfl
          | some reply =>
            obtain ⟨header, payload⟩ := reply
            have hstatus := hreply header payload rfl
            simp only [heq]
            rcases frameEncodeInto_cases header payload response capacity 0 with ⟨octets, _, henc⟩ | ⟨e, hne, _, henc⟩
            · simp only [henc]
              refine .set next hadvance time _ _ ?_
              split
              · exact hstatus
              · rfl
            · simp only [henc]
              cases e <;> first
                | exact absurd rfl hne
                | exact .refused _ (by decide)
  · simp only [hadvance]
    exact .refused _ (by decide)

theorem Served.steady {ctx : Context} {now : UInt32} {response : Bytes} {info : DispatchInfo}
    {out : Codec × Context × Bytes × DispatchInfo} (h : Served ctx now response info out) (hctx : Steady ctx) :
    Steady out.2.1 := by
  cases h with
  | refused e hne => exact hctx
  | aged next hadvance response' info' =>
    rcases advance_spec ctx now with ⟨_, _, next', heq, hadv⟩ | ⟨_, heq⟩
    · rw [hadvance] at heq
      cases heq
      exact hadv.steady
    · rw [hadvance] at heq
      cases heq
  | set next hadvance time response' info' hstatus => exact ⟨by simp, fun _ => rfl⟩

theorem idTick_steady {ctx : Context} (h : Steady ctx) (now : UInt32) : Steady (idTick ctx now).2 := by
  unfold idTick
  rcases advance_spec ctx now with ⟨_, _, next, heq, hadv⟩ | ⟨_, heq⟩
  · rw [heq]
    exact hadv.steady
  · rw [heq]
    exact h

/-- The calls of a server's owner. -/
inductive Call where
  | init (now : UInt32)
  | tick (now : UInt32)
  | rx (now : UInt32) (request response : Bytes) (capacity : Nat) (info : DispatchInfo)

def perform (ctx : Context) : Call → Codec × Context
  | .init now => (.ok, idInit now)
  | .tick now => idTick ctx now
  | .rx now request response capacity info =>
    let out := idRx ctx now request response capacity info
    (out.1, out.2.1)

theorem perform_steady {ctx : Context} (h : Steady ctx) (call : Call) : Steady (perform ctx call).2 := by
  cases call with
  | init now => exact ⟨by simp [perform, idInit], fun _ => rfl⟩
  | tick now => exact idTick_steady h now
  | rx now request response capacity info => exact (idRx_served ctx now request response capacity info).steady h

/-- The Identify countdown: catching up composes, over every run the phase stays within its
second and an idle server has none, and a request that is refused leaves the context and
its outputs as they were; one answered with an error only lets the clock go on. -/
theorem countdown_composes :
    (∀ ctx t1 t2, (t1 - ctx.stamp).toNat + (t2 - t1).toNat < 2 ^ 31 →
      (idTick (idTick ctx t1).2 t2).2 = (idTick ctx t2).2) ∧
    (∀ now calls, Runs.Throughout perform (fun ctx => ctx.phase.toNat < 1000 ∧ (ctx.remaining = 0 → ctx.phase = 0))
      (idInit now) calls) ∧
    (∀ ctx now, (idTick ctx now).1 ≠ .ok → (idTick ctx now).2 = ctx) ∧
    (∀ ctx now request response capacity info, (idRx ctx now request response capacity info).1 ≠ .ok →
      (idRx ctx now request response capacity info).2 = (ctx, response, info)) ∧
    (∀ ctx now request response capacity info,
      (idRx ctx now request response capacity info).1 = .ok →
      (idRx ctx now request response capacity info).2.2.2.defaultStatus ≠ statusSuccess →
      (idRx ctx now request response capacity info).2.1 = (idTick ctx now).2) := by
  refine ⟨tick_compose, fun now calls => ?_, fun ctx now hne => ?_,
    fun ctx now request response capacity info hne => ?_, fun ctx now request response capacity info hok hstatus => ?_⟩
  · have hinit : Steady (idInit now) := ⟨by simp [idInit], fun _ => rfl⟩
    exact Runs.throughout_of_invariant perform (fun _ _ => True) _ Steady (fun ctx call h _ => perform_steady h call)
      (fun ctx h => ⟨h.phase, h.idle⟩) (idInit now) hinit calls (Runs.meets_true perform _ _)
  · unfold idTick at hne ⊢
    split at hne
    · exact absurd rfl hne
    · rfl
  · generalize hout : idRx ctx now request response capacity info = out at hne
    have hserved := idRx_served ctx now request response capacity info
    rw [hout] at hserved
    cases hserved with
    | refused e _ => rfl
    | aged next _ response' info' => exact absurd rfl hne
    | set next _ time response' info' _ => exact absurd rfl hne
  · generalize hout : idRx ctx now request response capacity info = out at hok hstatus
    have hserved := idRx_served ctx now request response capacity info
    rw [hout] at hserved
    cases hserved with
    | refused e hne => exact absurd hok hne
    | aged next hadvance response' info' => simp only [idTick, hadvance]
    | set next _ time response' info' hzero => exact absurd hzero hstatus

end Zcl.Identify
