/-
MahoRD/Tauri/ConnectionOrder.lean

What keeps the generations of the desktop connection apart.  A connect is unsettled only as long as
the connection is busy, and a cleanup that has begun since waits for it (`Inv.unsettled`); so a
session that may be there is never forgotten (`Inv.idle`), and what comes late finds another
generation.

This rests on an order the code does not enforce (`Orderly`).  A retry of a failed cleanup runs
while the connection is not busy, so a connect may begin under it, and the cleanup then ends the
new generation.
-/
import MahoRD.Tauri.Connection

namespace MahoRD.Tauri

open Machine

section Order

variable {ι κ : Type*}

/-! ### Invariant -/

/-- No native session can be there: no connect is pending, and one that has succeeded has been
disconnected. -/
def Closed (s : State ι κ) : Prop :=
  ∀ c n, s.native = some (c, n) → n ≠ .pending ∧ (n = .succeeded → s.disconnected = true)

structure Inv (s : State ι κ) : Prop where
  /-- An unsettled connect is the pending one, and a cleanup waits for it. -/
  unsettled : ∀ c call, s.connects c = some call → call.stage.settled = false →
    s.pendingConnect = some c ∧ s.busy = true ∧
      (s.pendingCleanup = none → call.generation = s.generation) ∧
      ∀ k, s.pendingCleanup = some k → k.connectToSettle = some c ∧ k.stage ≠ .disconnecting
  /-- The answer of the current connect is the one that was noted last. -/
  resolved : ∀ c call answer, s.connects c = some call → call.stage = .resolved answer →
    call.generation = s.generation → s.pendingConnect = some c ∧
      ∀ capabilities, answer = .ok (some capabilities) → s.connectCapabilities = capabilities
  past : ∀ c call, s.connects c = some call → call.generation ≤ s.generation
  cleanup : ∀ k, s.pendingCleanup = some k → k.generation = s.generation
  native : ∀ c, s.native = some (c, .pending) →
    ∃ call, s.connects c = some call ∧ call.stage = .native
  idle : s.busy = false → Closed s
  disconnecting : ∀ k, s.pendingCleanup = some k → k.stage = .disconnecting → Closed s

theorem Inv.init (nativeAvailable : Bool) : Inv (State.init nativeAvailable : State ι κ) :=
  ⟨nofun, nofun, nofun, nofun, nofun, fun _ => nofun, nofun⟩

/-- What the invariant speaks of. -/
def State.core (s : State ι κ) :=
  (s.generation, s.busy, s.pendingConnect, s.pendingCleanup, s.connectCapabilities, s.connects,
    s.native, s.disconnected)

variable {s : State ι κ} {k k' : Cleanup ι}

theorem Inv.congr {s' : State ι κ} (h : Inv s) (hc : s'.core = s.core) : Inv s' := by
  simp only [State.core, Prod.mk.injEq] at hc
  obtain ⟨hg, hb, hp, hk, hcap, hc, hn, hd⟩ := hc
  have hclosed : Closed s → Closed s' := fun h c n => by
    rw [hn, hd]
    exact h c n
  refine ⟨?_, ?_, ?_, ?_, ?_, ?_, ?_⟩
  · rw [hg, hb, hp, hk, hc]
    exact h.unsettled
  · rw [hg, hp, hcap, hc]
    exact h.resolved
  · rw [hg, hc]
    exact h.past
  · rw [hg, hk]
    exact h.cleanup
  · rw [hn, hc]
    exact h.native
  · rw [hb]
    exact fun hb => hclosed (h.idle hb)
  · rw [hk]
    exact fun k hk hd => hclosed (h.disconnecting k hk hd)

/-! ### Cleanups -/

theorem Inv.beginCleanup (h : Inv s) (retry : Bool) : Inv (s.cleanup retry) := by
  rw [State.cleanup]
  split
  · refine
      { unsettled := fun c call hc hs => ?_
        resolved := fun c call answer hc hs hg => ?_
        past := fun c call hc => Nat.le_succ_of_le (h.past c call hc)
        cleanup := fun k hk => ?_
        native := h.native
        idle := h.idle
        disconnecting := fun k hk hs => ?_ }
    · obtain ⟨hp, hbusy, -⟩ := h.unsettled c call hc hs
      refine ⟨hp, hbusy, nofun, fun k hk => ?_⟩
      obtain rfl := Option.some.inj hk
      exact ⟨hp, nofun⟩
    · -- Every connect is of an older generation now.
      have := h.past c call hc
      exact absurd hg (Nat.ne_of_lt (Nat.lt_succ_of_le this))
    · rw [← Option.some.inj hk]
    · rw [← Option.some.inj hk] at hs
      cases hs
  · exact h

theorem Inv.setCleanup (h : Inv s) (hk : s.pendingCleanup = some k)
    (hc : k'.connectToSettle = k.connectToSettle) (hg : k'.generation = k.generation)
    {stage : CleanupStage} (hs : stage ≠ .disconnecting) : Inv (s.setCleanup k' stage) where
  unsettled := fun c call hcall hst => by
    obtain ⟨hp, hb, -, hset⟩ := h.unsettled c call hcall hst
    refine ⟨hp, hb, nofun, fun k'' hk'' => ?_⟩
    obtain rfl := Option.some.inj hk''
    exact ⟨hc.trans (hset k hk).1, hs⟩
  resolved := h.resolved
  past := h.past
  cleanup := fun k'' hk'' => by
    rw [← Option.some.inj hk'']
    exact hg.trans (h.cleanup k hk)
  native := h.native
  idle := h.idle
  disconnecting := fun k'' hk'' hst => by
    rw [← Option.some.inj hk''] at hst
    exact absurd hst hs

theorem Inv.invokeDisconnect (h : Inv s)
    (hk : s.pendingCleanup = some k) (hg : k'.generation = k.generation)
    (hset : ∀ c call, s.connects c = some call → call.stage.settled = true) :
    Inv (s.invokeDisconnect k') := by
  have hclosed : Closed (s.invokeDisconnect k') := by
    intro c n hn
    have hne : n ≠ .pending := by
      rintro rfl
      obtain ⟨call, hc, hst⟩ := h.native c hn
      have := hset c call hc
      rw [hst] at this
      cases this
    have hn' : s.native = some (c, n) := hn
    refine ⟨hne, fun _ => ?_⟩
    simp [State.invokeDisconnect, hn', hne]
  exact
    { unsettled := fun c call hc hst => by
        rw [hset c call hc] at hst
        cases hst
      resolved := h.resolved
      past := h.past
      cleanup := fun k'' hk'' => by
        rw [← Option.some.inj hk'']
        exact hg.trans (h.cleanup k hk)
      native := h.native
      idle := fun _ => hclosed
      disconnecting := fun _ _ _ => hclosed }

theorem Inv.all_settled (h : Inv s) (hk : s.pendingCleanup = some k)
    (hn : k.connectToSettle = none ∨ ∃ c call, k.connectToSettle = some c ∧
      s.connects c = some call ∧ call.stage.settled = true) :
    ∀ c call, s.connects c = some call → call.stage.settled = true := by
  intro c call hc
  by_contra hst
  rw [Bool.not_eq_true] at hst
  obtain ⟨-, -, -, hset⟩ := h.unsettled c call hc hst
  rcases hn with hn | ⟨c', call', hs', hc', hst'⟩
  · rw [(hset k hk).1] at hn
    cases hn
  · obtain rfl : c = c' := Option.some.inj ((hset k hk).1.symm.trans hs')
    obtain rfl : call = call' := Option.some.inj (hc.symm.trans hc')
    rw [hst] at hst'
    cases hst'

theorem Inv.afterCancel (h : Inv s)
    (hk : s.pendingCleanup = some k) (hc : k'.connectToSettle = k.connectToSettle)
    (hg : k'.generation = k.generation) : Inv (s.afterCancel k') := by
  rw [State.afterCancel]
  split
  · exact h.setCleanup hk hc hg nofun
  next hn =>
    rw [hc] at hn
    refine h.invokeDisconnect hk hg (h.all_settled hk (Or.inl ?_))
    simpa using hn

theorem Inv.afterRelease (h : Inv s)
    (hk : s.pendingCleanup = some k) (hc : k'.connectToSettle = k.connectToSettle)
    (hg : k'.generation = k.generation) : Inv (s.afterRelease k') := by
  rw [State.afterRelease]
  split
  · exact h.setCleanup hk hc hg nofun
  · exact h.afterCancel hk hc hg

theorem Inv.finishCleanup (h : Inv s) (k' : Cleanup ι)
    (hk : s.pendingCleanup = some k) (hs : k.stage = .disconnecting) : Inv (s.finishCleanup k') := by
  have hset : ∀ c call, s.connects c = some call → call.stage.settled = true := by
    intro c call hc
    by_contra hst
    rw [Bool.not_eq_true] at hst
    exact ((h.unsettled c call hc hst).2.2.2 k hk).2 hs
  have hbase : Inv { s with busy := false, host := none, pendingCleanup := none } :=
    { unsettled := fun c call hc hst => by
        rw [hset c call hc] at hst
        cases hst
      resolved := h.resolved
      past := h.past
      cleanup := nofun
      native := h.native
      idle := fun _ => h.disconnecting k hk hs
      disconnecting := nofun }
  rw [State.finishCleanup]
  split
  · exact hbase.congr rfl
  · exact hbase.congr rfl

theorem note_same (k : Cleanup ι) (outcome : Except String Unit) :
    (k.note outcome).connectToSettle = k.connectToSettle ∧
      (k.note outcome).generation = k.generation := by
  cases outcome <;> exact ⟨rfl, rfl⟩

theorem Inv.goCleanup {s' : State ι κ} (h : Inv s)
    (hk : s.pendingCleanup = some k) {outcome : Except String Unit}
    (hs : s.goCleanup k outcome = some s') : Inv s' := by
  obtain ⟨hc, hg⟩ := note_same k outcome
  simp only [State.goCleanup] at hs
  split at hs
  · cases hs
    split
    · exact h.afterRelease hk rfl rfl
    · exact h.setCleanup hk rfl rfl nofun
  · cases hs
    exact h.afterRelease hk hc hg
  · cases hs
    exact h.afterCancel hk hc hg
  · split at hs
    next call hcall =>
      split at hs
      next hst =>
        cases hs
        obtain ⟨c, hset, hcall'⟩ := Option.bind_eq_some_iff.1 hcall
        exact h.invokeDisconnect hk rfl (h.all_settled hk (Or.inr ⟨c, call, hset, hcall', hst⟩))
      · cases hs
    · cases hs
  next hst =>
    cases hs
    exact h.finishCleanup _ hk hst

/-! ### Connects -/

section Calls

variable [DecidableEq ι] {s : State ι κ} {c : ι} {call : ConnectCall}

theorem setConnect_some {c' : ι} {call call' : ConnectCall}
    (h : (s.setConnect c call).connects c' = some call') :
    c' = c ∧ call' = call ∨ c' ≠ c ∧ s.connects c' = some call' := by
  simp only [State.setConnect, Function.update_apply] at h
  split at h
  next hcc =>
    exact Or.inl ⟨hcc, (Option.some.inj h).symm⟩
  next hcc =>
    exact Or.inr ⟨hcc, h⟩

theorem Inv.setConnect (h : Inv s) (hc : s.connects c = some call) {stage : ConnectStage}
    (hs : stage.settled = false → call.stage.settled = false)
    (hr : ∀ answer, stage = .resolved answer → call.generation = s.generation →
      s.pendingConnect = some c ∧
        ∀ capabilities, answer = .ok (some capabilities) → s.connectCapabilities = capabilities)
    (hn : s.native = some (c, .pending) → stage = .native) :
    Inv (s.setConnect c { call with stage }) where
  unsettled := fun c' call' hc' hst => by
    obtain ⟨rfl, rfl⟩ | ⟨-, hc'⟩ := setConnect_some hc'
    · exact h.unsettled c' call hc (hs hst)
    · exact h.unsettled c' call' hc' hst
  resolved := fun c' call' answer hc' hst hg => by
    obtain ⟨rfl, rfl⟩ | ⟨-, hc'⟩ := setConnect_some hc'
    · exact hr answer hst hg
    · exact h.resolved c' call' answer hc' hst hg
  past := fun c' call' hc' => by
    obtain ⟨rfl, rfl⟩ | ⟨-, hc'⟩ := setConnect_some hc'
    · exact h.past c' call hc
    · exact h.past c' call' hc'
  cleanup := h.cleanup
  native := fun c' hc' => by
    by_cases hcc : c' = c
    · subst hcc
      exact ⟨_, Function.update_self .., hn hc'⟩
    · obtain ⟨call', hcall', hst⟩ := h.native c' hc'
      exact ⟨call', (Function.update_of_ne hcc ..).trans hcall', hst⟩
  idle := h.idle
  disconnecting := h.disconnecting

omit [DecidableEq ι] in
theorem Inv.setNative (h : Inv s) (hc : s.connects c = some call)
    (hs : call.stage.settled = false) {native : Option (ι × NativeConnect)}
    (disconnected : Bool) (hn : ∀ c', native = some (c', .pending) →
      ∃ call, s.connects c' = some call ∧ call.stage = .native) :
    Inv { s with native, disconnected } where
  unsettled := h.unsettled
  resolved := h.resolved
  past := h.past
  cleanup := h.cleanup
  native := hn
  idle := fun hb => by
    have := (h.unsettled c call hc hs).2.1
    rw [show s.busy = false from hb] at this
    cases this
  disconnecting := fun k hk hd => absurd hd ((h.unsettled c call hc hs).2.2.2 k hk).2

theorem Inv.runConnect (h : Inv s) (hc : s.connects c = some call)
    (hs : call.stage = .scheduled) :
    Inv { s.setConnect c { call with stage := .native } with
      native := some (c, .pending), disconnected := false } := by
  have h' : Inv (s.setConnect c { call with stage := .native }) :=
    h.setConnect hc (fun _ => by rw [hs]; rfl) nofun fun _ => rfl
  refine h'.setNative (Function.update_self ..) rfl false fun c' hc' => ?_
  obtain ⟨rfl, -⟩ := Prod.mk.inj (Option.some.inj hc')
  exact ⟨_, Function.update_self .., rfl⟩

theorem Inv.settle (h : Inv s) (hc : s.connects c = some call) (hs : call.stage = .native)
    (answer : Answer) : Inv (s.settle c call answer) := by
  -- How the connect has ended.
  have hended : ∀ c' n, (s.settle c call answer).native = some (c', n) → n = .pending →
      c' ≠ c ∧ s.native = some (c', n) := by
    intro c' n hn hp
    obtain ⟨⟨c₀, n₀⟩, hn₀, heq⟩ := Option.map_eq_some_iff.1 hn
    split at heq
    · obtain ⟨-, rfl⟩ := Prod.mk.inj heq
      cases answer <;> cases hp
    next hne =>
      obtain ⟨rfl, rfl⟩ := Prod.mk.inj heq
      exact ⟨hne, hn₀⟩
  have h' : Inv { s with native := (s.settle c call answer).native } :=
    h.setNative hc (by rw [hs]; rfl) s.disconnected fun c' hc' =>
      h.native c' (hended c' _ hc' rfl).2
  exact h'.setConnect hc (fun _ => by rw [hs]; rfl) nofun fun hn =>
    absurd rfl (hended c _ hn rfl).1

theorem Inv.deliver (h : Inv s) (hc : s.connects c = some call) {answer : Answer}
    (hs : call.stage = .answered answer) : Inv (s.deliver c call answer) := by
  have hu := h.unsettled c call hc (by rw [hs]; rfl)
  have h' : Inv { s with connectCapabilities := (s.deliver c call answer).connectCapabilities } :=
    { unsettled := h.unsettled
      -- The pending connect is this one, which is not resolved.
      resolved := fun c' call' answer' hc' hst hg => by
        obtain rfl : c = c' := Option.some.inj (hu.1.symm.trans (h.resolved c' call' _ hc' hst hg).1)
        rw [← Option.some.inj (hc.symm.trans hc'), hs] at hst
        cases hst
      past := h.past
      cleanup := h.cleanup
      native := h.native
      idle := h.idle
      disconnecting := h.disconnecting }
  refine h'.setConnect hc nofun (fun answer' ha _ => ⟨hu.1, fun capabilities hcap => ?_⟩)
    fun hn => ?_
  · obtain rfl := ConnectStage.resolved.inj ha
    simp only [State.deliver, hcap]
  · obtain ⟨call', hc', hst⟩ := h.native c hn
    rw [← Option.some.inj (hc.symm.trans hc'), hs] at hst
    cases hst

theorem Inv.forget (h : Inv s) (hc : s.connects c = some call) (hs : call.stage.settled = true)
    (hr : ∀ answer, call.stage ≠ .resolved answer) :
    Inv { s with pendingConnect := if s.pendingConnect = some c then none else s.pendingConnect } :=
  have hkeep : ∀ {c' call'}, s.connects c' = some call' → s.pendingConnect = some c' →
      call'.stage ≠ call.stage →
      (if s.pendingConnect = some c then none else s.pendingConnect) = some c' := by
    intro c' call' hc' hp hne
    rw [if_neg, hp]
    rintro hp'
    obtain rfl : c' = c := Option.some.inj (hp.symm.trans hp')
    rw [Option.some.inj (hc.symm.trans hc')] at hne
    exact hne rfl
  { unsettled := fun c' call' hc' hst => by
      obtain ⟨hp, hrest⟩ := h.unsettled c' call' hc' hst
      refine ⟨hkeep hc' hp fun heq => ?_, hrest⟩
      rw [heq, hs] at hst
      cases hst
    resolved := fun c' call' answer hc' hst hg => by
      obtain ⟨hp, hcap⟩ := h.resolved c' call' answer hc' hst hg
      exact ⟨hkeep hc' hp fun heq => hr answer (heq.symm.trans hst), hcap⟩
    past := h.past
    cleanup := h.cleanup
    native := h.native
    idle := h.idle
    disconnecting := h.disconnecting }

theorem Inv.goOn (h : Inv s) (hc : s.connects c = some call) (hs : call.stage.settled = true)
    {stage : ConnectStage} (hs' : stage.settled = true) (hr : ∀ answer, stage ≠ .resolved answer) :
    Inv (s.setConnect c { call with stage }) :=
  h.setConnect hc (fun hf => by rw [hs'] at hf; cases hf)
    (fun answer ha => absurd ha (hr answer)) fun hn => by
      obtain ⟨call', hc', hst⟩ := h.native c hn
      rw [← Option.some.inj (hc.symm.trans hc')] at hst
      rw [hst] at hs
      cases hs

theorem Inv.resume (h : Inv s) (hc : s.connects c = some call) {answer : Answer}
    (hs : call.stage = .resolved answer) : Inv (s.resume c call answer) := by
  have hgo : ∀ stage : ConnectStage, stage.settled = true → (∀ answer, stage ≠ .resolved answer) →
      Inv { s.setConnect c { call with stage } with
        pendingConnect := if s.pendingConnect = some c then none else s.pendingConnect } := by
    intro stage hst hr
    exact (h.goOn hc (by rw [hs]; rfl) hst hr).forget (Function.update_self ..) hst hr
  simp only [State.resume]
  split
  · exact hgo .done rfl nofun
  · cases answer with
    | ok capabilities => exact (hgo .waitingVideo rfl nofun).congr rfl
    | error failure =>
      refine Inv.beginCleanup ?_ false
      exact (hgo .done rfl nofun).congr rfl

theorem Inv.failChoices (h : Inv s) (hc : s.connects c = some call)
    (hs : call.stage.settled = true) (error : String) : Inv (s.failChoices c call error) :=
  have h' : Inv (s.setConnect c { call with stage := .done }) := h.goOn hc hs rfl nofun
  h'.congr rfl

theorem Inv.sendOptions (h : Inv s) (hc : s.connects c = some call)
    (hs : call.stage.settled = true) (saved : Option (Except String Unit)) :
    Inv (s.sendOptions c call saved) := by
  simp only [State.sendOptions]
  split
  · exact h.goOn hc hs rfl nofun
  · exact h.failChoices hc hs _
  · exact h.goOn hc hs rfl nofun

theorem Inv.streamState (h : Inv s) (hc : s.connects c = some call)
    (hs : call.stage.settled = true) (answer : Except String Bool) (bitrate : Bool)
    (saved : Option (Except String Unit)) : Inv (s.streamState c call answer bitrate saved) := by
  simp only [State.streamState]
  split
  · exact h.failChoices hc hs _
  · split_ifs
    · exact h.goOn hc hs rfl nofun
    · exact h.goOn hc hs rfl nofun
    · exact h.sendOptions hc hs saved
    · exact h.goOn hc hs rfl nofun

theorem Inv.connect (h : Inv s) (ho : s.pendingCleanup = none ∨ s.busy = true)
    (request : Except (List (String × String)) HostInfo) : Inv (s.connect c request) := by
  simp only [State.connect]
  split
  · exact h
  next hn =>
    have hb : s.busy = false := Bool.eq_false_iff.2 fun hb => hn (Or.inr hb)
    have hk : s.pendingCleanup = none := ho.resolve_right (by rw [hb]; nofun)
    have hset : ∀ c call, s.connects c = some call → call.stage.settled = true := by
      intro c call hc
      by_contra hst
      rw [Bool.not_eq_true] at hst
      have := (h.unsettled c call hc hst).2.1
      rw [hb] at this
      cases this
    cases request with
    | error fieldErrors => exact h.congr rfl
    | ok host =>
      exact
        { unsettled := fun c' call' hc' hst => by
            obtain ⟨rfl, rfl⟩ | ⟨-, hc'⟩ := setConnect_some hc'
            · exact ⟨rfl, rfl, fun _ => rfl, fun k hk' => nomatch hk.symm.trans hk'⟩
            · rw [hset c' call' hc'] at hst
              cases hst
          resolved := fun c' call' answer hc' hst hg => by
            obtain ⟨rfl, rfl⟩ | ⟨-, hc'⟩ := setConnect_some hc'
            · cases hst
            · have := h.past c' call' hc'
              exact absurd hg (Nat.ne_of_lt (Nat.lt_succ_of_le this))
          past := fun c' call' hc' => by
            obtain ⟨rfl, rfl⟩ | ⟨-, hc'⟩ := setConnect_some hc'
            · exact Nat.le_refl _
            · exact Nat.le_succ_of_le (h.past c' call' hc')
          cleanup := fun k hk' => nomatch hk.symm.trans hk'
          native := fun c' hc' => by
            obtain ⟨call', hcall', hst⟩ := h.native c' hc'
            have := hset c' call' hcall'
            rw [hst] at this
            cases this
          idle := nofun
          disconnecting := fun k hk' => nomatch hk.symm.trans hk' }

/-! ### Statistics -/

variable [DecidableEq κ]

omit [DecidableEq ι] in
theorem Inv.finishStats (h : Inv s) (k : κ) (call : StatsCall) : Inv (s.finishStats k call) :=
  h.congr rfl

omit [DecidableEq ι] in
theorem Inv.failStats (h : Inv s) (k : κ) (call : StatsCall) (error : String) :
    Inv (s.failStats k call error) := by
  rw [State.failStats]
  split
  · exact h.congr rfl
  · exact h.congr rfl

omit [DecidableEq ι] in
theorem Inv.statsSettled (h : Inv s) (k : κ) (call : StatsCall)
    (answer : Except String (Option Stats)) : Inv (s.statsSettled k call answer) := by
  cases answer with
  | error error => exact h.failStats k call error
  | ok stats =>
    simp only [State.statsSettled]
    split_ifs
    · exact h.congr rfl
    · exact h.congr rfl
    · exact h.congr rfl
    · refine Inv.finishStats (Inv.beginCleanup ?_ false) k call
      exact h.congr rfl
    · refine Inv.finishStats (Inv.beginCleanup ?_ false) k call
      exact h.congr rfl
    · exact h.congr rfl
    · exact h.congr rfl
    · exact h.congr rfl

end Calls

/-! ### Runs -/

section Runs

variable [DecidableEq ι] [DecidableEq κ] {s s' : State ι κ}

/-- No connect is accepted while a cleanup is pending. -/
def Orderly (s : State ι κ) : Label ι κ → Prop
  | .connect _ _ => s.pendingCleanup = none ∨ s.busy = true
  | _ => True

instance (s : State ι κ) (label : Label ι κ) : Decidable (Orderly s label) := by
  cases label <;> unfold Orderly <;> infer_instance

variable {c : ι} {k : κ}

omit [DecidableEq κ] in
theorem Inv.stepConnect (h : Inv s) {call : ConnectCall} (hc : s.connects c = some call)
    {label : Label ι κ} (hl : label.connect? = some c)
    (hs : stepConnect s call label = some s') : Inv s' := by
  cases label <;> cases hl <;> simp only [Tauri.stepConnect] at hs <;> split at hs <;> cases hs
  next hst => exact h.runConnect hc hst
  next hst => exact h.settle hc hst _
  next hst => exact h.deliver hc hst
  next hst => exact h.resume hc hst
  next hst =>
    refine h.goOn hc (by rw [hst]; rfl) ?_ fun answer => ?_
    · split <;> rfl
    · split <;> nofun
  next hst => exact h.streamState hc (by rw [hst]; rfl) _ _ _
  next hst => exact h.sendOptions hc (by rw [hst]; rfl) _
  next hst => exact h.failChoices hc (by rw [hst]; rfl) _
  next hst => exact h.goOn hc (by rw [hst]; rfl) rfl nofun
  next hst => exact h.failChoices hc (by rw [hst]; rfl) _

omit [DecidableEq ι] in
theorem Inv.stepStats (h : Inv s) {call : StatsCall} {label : Label ι κ}
    (hl : label.stats? = some k) (hs : stepStats s call label = some s') : Inv s' := by
  cases label <;> cases hl <;> simp only [Tauri.stepStats] at hs <;> split at hs <;> cases hs
  · exact h.congr rfl
  · exact h.statsSettled k call _
  · exact h.finishStats k call
  · exact h.failStats k call _

theorem step_cases {label : Label ι κ} (hs : step s label = some s') :
    (∀ c, label.connect? = some c → ∃ call, s.connects c = some call ∧
      stepConnect s call label = some s') ∧
    ∀ k, label.stats? = some k → ∃ call, s.refreshes k = some call ∧
      stepStats s call label = some s' := by
  constructor
  · intro c hc
    cases label <;> cases hc <;> exact Option.bind_eq_some_iff.1 hs
  · intro k hk
    cases label <;> cases hk <;> exact Option.bind_eq_some_iff.1 hs

/-- **The invariant is kept** where no connect is accepted under a cleanup. -/
theorem Inv.keep (h : Inv s) {label : Label ι κ} (ho : Orderly s label)
    (hs : step s label = some s') : Inv s' := by
  cases label with
  | connect c request =>
    simp only [step] at hs
    split at hs
    · cases hs
      exact h.connect ho request
    · cases hs
  | cancel => cases hs; exact h.beginCleanup _
  | disconnect => cases hs; exact h.beginCleanup _
  | retryCleanup =>
    cases hs
    split
    · exact h.beginCleanup true
    · exact h
  | cleanup outcome =>
    obtain ⟨k, hk, hs⟩ := Option.bind_eq_some_iff.1 hs
    exact h.goCleanup hk hs
  | refreshStats k =>
    simp only [step, State.refreshStats] at hs
    split at hs
    · cases hs
      split
      · exact h
      · exact h.congr rfl
    · cases hs
  | markFrameRendered token =>
    cases hs
    rw [State.markFrameRendered]
    split
    · exact h.congr rfl
    · exact h
  | reportFrameError token error =>
    cases hs
    simp only [State.reportFrameError]
    split
    · exact h
    · refine Inv.beginCleanup ?_ false
      exact h.congr rfl
  | runStats k | statsSettled k | inputsReleased k =>
    obtain ⟨call, -, hs'⟩ := (step_cases hs).2 k rfl
    exact h.stepStats rfl hs'
  | _ =>
    obtain ⟨call, hc, hs'⟩ := (step_cases hs).1 _ rfl
    exact h.stepConnect hc rfl hs'

/-- What is told of a generation. -/
def State.shown (s : State ι κ) :=
  (s.phase, s.host, s.error, s.errorCode, s.capabilities, s.busy)

/-- A step of a call of `connect` or `refreshStats` that belongs to another generation. -/
def Late (s : State ι κ) (label : Label ι κ) : Prop :=
  (∃ c call, label.connect? = some c ∧ s.connects c = some call ∧
    call.generation ≠ s.generation) ∨
  ∃ k call, label.stats? = some k ∧ s.refreshes k = some call ∧ call.generation ≠ s.generation

omit [DecidableEq κ] in
theorem sendOptions_shown (s : State ι κ) (c : ι) (call : ConnectCall)
    (saved : Option (Except String Unit)) : (s.sendOptions c call saved).shown = s.shown := by
  rcases saved with - | - | -
  · rfl
  · rfl
  · rfl

omit [DecidableEq κ] in
theorem streamState_late {call : ConnectCall} (hg : call.generation ≠ s.generation)
    (answer : Except String Bool) (bitrate : Bool) (saved : Option (Except String Unit)) :
    (s.streamState c call answer bitrate saved).shown = s.shown := by
  cases answer with
  | error error => rfl
  | ok supported =>
    simp only [State.streamState, if_pos hg]
    rfl

omit [DecidableEq κ] in
theorem stepConnect_late {call : ConnectCall} {label : Label ι κ}
    (hl : label.connect? = some c) (hg : call.generation ≠ s.generation)
    (hs : stepConnect s call label = some s') : s'.shown = s.shown := by
  cases label <;> cases hl <;> simp only [stepConnect] at hs <;> split at hs <;> cases hs
  · rfl
  · rfl
  · rfl
  · simp [State.resume, hg, State.setConnect, State.shown]
  · rfl
  · exact streamState_late hg ..
  · exact sendOptions_shown ..
  · rfl
  · rfl
  · rfl

omit [DecidableEq ι] in
theorem failStats_late {call : StatsCall} (hg : call.generation ≠ s.generation) (k : κ)
    (error : String) : (s.failStats k call error).shown = s.shown := by
  have hcur : s.isCurrent call.generation = false := by simp [State.isCurrent, hg]
  simp only [State.failStats, hcur, Bool.false_eq_true, if_false]
  rfl

omit [DecidableEq ι] in
theorem statsSettled_late {call : StatsCall} (hg : call.generation ≠ s.generation) (k : κ)
    (answer : Except String (Option Stats)) : (s.statsSettled k call answer).shown = s.shown := by
  have hcur : s.isCurrent call.generation = false := by simp [State.isCurrent, hg]
  cases answer with
  | error error => exact failStats_late hg k error
  | ok stats =>
    simp only [State.statsSettled, hcur, Bool.false_eq_true, not_false_eq_true, if_true]
    rfl

omit [DecidableEq ι] in
theorem stepStats_late {call : StatsCall} {label : Label ι κ}
    (hl : label.stats? = some k) (hg : call.generation ≠ s.generation)
    (hs : stepStats s call label = some s') : s'.shown = s.shown := by
  cases label <;> cases hl <;> simp only [stepStats] at hs <;> split at hs <;> cases hs
  · rfl
  · exact statsSettled_late hg k _
  · rfl
  · exact failStats_late hg k _

theorem late_shown {label : Label ι κ} (hl : Late s label) (hs : step s label = some s') :
    s'.shown = s.shown := by
  obtain ⟨c, call, hc, hcall, hg⟩ | ⟨k, call, hk, hcall, hg⟩ := hl
  · obtain ⟨call', hcall', hs'⟩ := (step_cases hs).1 c hc
    obtain rfl := Option.some.inj (hcall.symm.trans hcall')
    exact stepConnect_late hc hg hs'
  · obtain ⟨call', hcall', hs'⟩ := (step_cases hs).2 k hk
    obtain rfl := Option.some.inj (hcall.symm.trans hcall')
    exact stepStats_late hk hg hs'

/-! What is sent for a generation. -/

omit [DecidableEq ι] [DecidableEq κ] in
@[simp] theorem cleanup_connects (s : State ι κ) (retry : Bool) :
    (s.cleanup retry).connects = s.connects := by
  rw [State.cleanup]
  split <;> rfl

omit [DecidableEq ι] [DecidableEq κ] in
theorem goCleanup_connects {k : Cleanup ι} {outcome : Except String Unit}
    (hs : s.goCleanup k outcome = some s') : s'.connects = s.connects := by
  have hcancel : ∀ k', (s.afterCancel k').connects = s.connects := by
    intro k'
    rw [State.afterCancel]
    split <;> rfl
  have hrelease : ∀ k', (s.afterRelease k').connects = s.connects := by
    intro k'
    rw [State.afterRelease]
    split
    · rfl
    · exact hcancel k'
  simp only [State.goCleanup] at hs
  split at hs
  · cases hs
    split
    · exact hrelease k
    · rfl
  · cases hs
    exact hrelease _
  · cases hs
    exact hcancel _
  · split at hs
    · split at hs
      · cases hs
        rfl
      · cases hs
    · cases hs
  · cases hs
    simp only [State.finishCleanup]
    split <;> rfl

omit [DecidableEq ι] in
theorem stepStats_connects {call : StatsCall} {label : Label ι κ}
    (hl : label.stats? = some k) (hs : stepStats s call label = some s') :
    s'.connects = s.connects := by
  have hfail : ∀ error, (s.failStats k call error).connects = s.connects := by
    intro error
    rw [State.failStats]
    split <;> rfl
  cases label <;> cases hl <;> simp only [stepStats] at hs <;> split at hs <;> cases hs
  · rfl
  next answer _ _ =>
    rcases answer with error | stats
    · exact hfail error
    · simp only [State.statsSettled]
      split_ifs <;> first | rfl | exact cleanup_connects ..
  · rfl
  · exact hfail _

omit [DecidableEq κ] in
/-- A bitrate is sent, and so are the choices unless they follow one, right after a look at the
generation. -/
theorem stepConnect_connects {call : ConnectCall} {label : Label ι κ}
    (hl : label.connect? = some c) (hs : stepConnect s call label = some s') :
    ∃ stage, s'.connects = Function.update s.connects c (some { call with stage }) ∧
      (stage = .settingBitrate → call.generation = s.generation) ∧
      (stage = .settingOptions → call.stage = .settingBitrate ∨ call.generation = s.generation) := by
  have hsend : ∀ saved, ∃ stage,
      (s.sendOptions c call saved).connects =
        Function.update s.connects c (some { call with stage }) ∧ stage ≠ .settingBitrate := by
    rintro (- | - | -)
    · exact ⟨.done, rfl, nofun⟩
    · exact ⟨.done, rfl, nofun⟩
    · exact ⟨.settingOptions, rfl, nofun⟩
  cases label <;> cases hl <;> simp only [stepConnect] at hs <;> split at hs <;> cases hs
  · exact ⟨.native, rfl, nofun, nofun⟩
  · exact ⟨.answered _, rfl, nofun, nofun⟩
  · exact ⟨.resolved _, rfl, nofun, nofun⟩
  · simp only [State.resume]
    split
    · exact ⟨.done, rfl, nofun, nofun⟩
    · split
      · exact ⟨.waitingVideo, rfl, nofun, nofun⟩
      · exact ⟨.done, cleanup_connects .., nofun, nofun⟩
  · exact ⟨_, rfl, by split <;> nofun, by split <;> nofun⟩
  · simp only [State.streamState]
    split
    · exact ⟨.done, rfl, nofun, nofun⟩
    · split
      · exact ⟨.done, rfl, nofun, nofun⟩
      next hg =>
        rw [not_not] at hg
        split
        · exact ⟨.done, rfl, nofun, nofun⟩
        · split
          · exact ⟨.settingBitrate, rfl, fun _ => hg, nofun⟩
          · obtain ⟨stage, hstage, -⟩ := hsend _
            exact ⟨stage, hstage, fun _ => hg, fun _ => Or.inr hg⟩
  next hst =>
    obtain ⟨stage, hstage, hne⟩ := hsend _
    exact ⟨stage, hstage, fun h => absurd h hne, fun _ => Or.inl hst⟩
  · exact ⟨.done, rfl, nofun, nofun⟩
  · exact ⟨.done, rfl, nofun, nofun⟩
  · exact ⟨.done, rfl, nofun, nofun⟩

/-- A saved choice begins to be sent, and a bitrate has not been sent before it. -/
def Sends (s s' : State ι κ) (c : ι) (call : ConnectCall) : Prop :=
  s'.connects c = some call ∧ s.connects c ≠ some call ∧
    (call.stage = .settingBitrate ∨ call.stage = .settingOptions ∧
      ∀ before, s.connects c = some before → before.stage ≠ .settingBitrate)

theorem sends_current {label : Label ι κ} (hs : step s label = some s')
    {call : ConnectCall} (h : Sends s s' c call) : call.generation = s.generation := by
  obtain ⟨hc, hne, hsent⟩ := h
  have hkept : s'.connects = s.connects → call.generation = s.generation :=
    fun heq => absurd (heq ▸ hc) hne
  cases label with
  | connect c' request =>
    simp only [step] at hs
    split at hs
    · obtain rfl := Option.some.inj hs
      simp only [State.connect] at hkept hc
      split at hc
      · exact absurd hc hne
      · cases request with
        | error fieldErrors => exact absurd hc hne
        | ok host =>
          obtain ⟨-, rfl⟩ | ⟨-, hc⟩ := setConnect_some hc
          · obtain hst | ⟨hst, -⟩ := hsent <;> cases hst
          · exact absurd hc hne
    · cases hs
  | cancel | disconnect => cases hs; exact hkept (cleanup_connects ..)
  | retryCleanup =>
    cases hs
    refine hkept ?_
    split
    · exact cleanup_connects ..
    · rfl
  | cleanup outcome =>
    obtain ⟨k, -, hs⟩ := Option.bind_eq_some_iff.1 hs
    exact hkept (goCleanup_connects hs)
  | refreshStats k =>
    simp only [step, State.refreshStats] at hs
    split at hs
    · cases hs
      refine hkept ?_
      split <;> rfl
    · cases hs
  | markFrameRendered token =>
    cases hs
    refine hkept ?_
    rw [State.markFrameRendered]
    split <;> rfl
  | reportFrameError token error =>
    cases hs
    refine hkept ?_
    simp only [State.reportFrameError]
    split
    · rfl
    · exact cleanup_connects ..
  | runStats k | statsSettled k | inputsReleased k =>
    obtain ⟨call', -, hs'⟩ := (step_cases hs).2 k rfl
    exact hkept (stepStats_connects rfl hs')
  | _ =>
    obtain ⟨call', hc', hs'⟩ := (step_cases hs).1 _ rfl
    obtain ⟨stage, hstage, hbitrate, hoptions⟩ := stepConnect_connects rfl hs'
    rw [hstage, Function.update_apply] at hc
    split at hc
    next hcc =>
      subst hcc
      obtain rfl := Option.some.inj hc
      obtain hst | ⟨hst, hbefore⟩ := hsent
      · exact hbitrate hst
      · exact (hoptions hst).resolve_left (hbefore call' hc')
    · exact absurd hc hne

/-- **Generations are kept apart.**  Let no connect be accepted while a cleanup is pending.  Then a
session that may be there keeps the connection busy, and a cleanup is of the current generation.  A
native connect is invoked when no other one is unsettled and any pending cleanup waits for it; what
comes late changes nothing; a connect takes its capabilities from its own answer; and what is sent,
choices after a bitrate apart, is sent for the current generation. -/
theorem generations_apart (nativeAvailable : Bool) (labels : List (Label ι κ)) (s : State ι κ)
    (ho : Along step Orderly (State.init nativeAvailable : State ι κ) labels)
    (hrun : run step (State.init nativeAvailable) labels = some s) :
    (∀ c n, s.native = some (c, n) →
      n = .pending ∨ n = .succeeded ∧ s.disconnected = false → s.busy = true) ∧
    (∀ k, s.pendingCleanup = some k → k.generation = s.generation) ∧
    ∀ label s', step s label = some s' →
      (∀ c, label = .runConnect c →
        (∀ c' call, s.connects c' = some call → call.stage.settled = false → c' = c) ∧
        ∀ k, s.pendingCleanup = some k → k.connectToSettle = some c ∧ k.stage ≠ .disconnecting) ∧
      (Late s label → s'.shown = s.shown) ∧
      (∀ c call capabilities, label = .resume c → s.connects c = some call →
        call.stage = .resolved (.ok (some capabilities)) → call.generation = s.generation →
        s'.capabilities = capabilities) ∧
      ∀ c call, Sends s s' c call → call.generation = s.generation := by
  have h : Inv s := run_inv_along (fun h ho hs => h.keep ho hs) (Inv.init _) ho hrun
  refine ⟨fun c n hn hopen => ?_, h.cleanup, fun label s' hs => ⟨?_, fun hl => late_shown hl hs,
    ?_, fun c call hc => sends_current hs hc⟩⟩
  · by_contra hb
    obtain ⟨hne, hclosed⟩ := h.idle (Bool.eq_false_iff.2 hb) c n hn
    obtain rfl | ⟨rfl, hd⟩ := hopen
    · exact hne rfl
    · rw [hclosed rfl] at hd
      cases hd
  · rintro c rfl
    obtain ⟨call, hc, hs'⟩ := (step_cases hs).1 c rfl
    have hst : call.stage = .scheduled := by
      simp only [stepConnect] at hs'
      split at hs'
      · assumption
      · cases hs'
    obtain ⟨hp, -, -, hk⟩ := h.unsettled c call hc (by rw [hst]; rfl)
    refine ⟨fun c' call' hc' hst' => ?_, hk⟩
    exact Option.some.inj ((h.unsettled c' call' hc' hst').1.symm.trans hp)
  · rintro c call capabilities rfl hc hst hg
    obtain ⟨call', hc', hs'⟩ := (step_cases hs).1 c rfl
    obtain rfl := Option.some.inj (hc.symm.trans hc')
    simp only [stepConnect, hst, State.resume, hg, ne_eq, not_true_eq_false, if_false] at hs'
    obtain rfl := Option.some.inj hs'
    exact (h.resolved c call _ hc hst hg).2 capabilities rfl

/-- A connect is canceled before it has been invoked, and succeeds. -/
theorem generations_apart_canceled :
    ∃ s, run step (State.init true : State ℕ ℕ) [.connect 0 (.ok ⟨"a", "a"⟩), .cancel,
        .runConnect 0, .answered 0 (.ok (some ⟨true, false⟩))] = some s ∧
      s.native = some (0, .succeeded) ∧ s.phase = .disconnecting ∧ s.busy = true ∧
      ∀ label s', step s label = some s' → Late s label → s'.shown = s.shown := by
  have hmap : (run step (State.init true : State ℕ ℕ) [.connect 0 (.ok ⟨"a", "a"⟩), .cancel,
      .runConnect 0, .answered 0 (.ok (some ⟨true, false⟩))]).map
        (fun s => (s.native, s.phase, s.disconnected)) =
      some (some (0, .succeeded), .disconnecting, false) := by
    decide
  obtain ⟨s, hs, heq⟩ := Option.map_eq_some_iff.1 hmap
  simp only [Prod.mk.injEq] at heq
  obtain ⟨hn, hp, hd⟩ := heq
  obtain ⟨hbusy, -, hstep⟩ := generations_apart true _ s (by decide) hs
  exact ⟨s, hs, hn, hp, hbusy 0 _ hn (Or.inr ⟨rfl, hd⟩),
    fun label s' hs' => (hstep label s' hs').2.1⟩

/-- What the order does not give: a native connect is invoked under a cleanup; one accepted under a
retry is pending when the connection is not busy any more; choices follow a bitrate that an older
generation has sent; and a connect answered without an object takes the capabilities of an older
one. -/
theorem generations_meet :
    (run step (State.init true : State ℕ ℕ) [.connect 0 (.ok ⟨"a", "a"⟩), .cancel,
        .runConnect 0]).map (fun s => (s.pendingCleanup.isSome, s.native)) =
      some (true, some (0, .pending)) ∧
    (run step (State.init true : State ℕ ℕ) [.connect 0 (.ok ⟨"a", "a"⟩), .runConnect 0,
        .answered 0 (.error ⟨"denied", none⟩), .deliver 0, .resume 0, .cleanup (.ok ()),
        .cleanup (.ok ()), .cleanup (.error "cleanup failed"), .retryCleanup,
        .connect 1 (.ok ⟨"b", "b"⟩), .runConnect 1, .cleanup (.ok ()), .cleanup (.ok ())]).map
        (fun s => (s.native, s.phase, s.busy)) =
      some (some (1, .pending), .idle, false) ∧
    (run step (State.init true : State ℕ ℕ) [.connect 0 (.ok ⟨"a", "a"⟩), .runConnect 0,
        .answered 0 (.ok (some ⟨true, false⟩)), .deliver 0, .resume 0, .askStream 0 true,
        .streamState 0 (.ok true) true none, .cancel, .bitrateSet 0 (.ok ()) (some (.ok ()))]).map
        (fun s => ((s.connects 0).map fun call => (call.stage, call.generation), s.generation)) =
      some (some (.settingOptions, 1), 2) ∧
    (run step (State.init true : State ℕ ℕ) [.connect 0 (.ok ⟨"a", "a"⟩), .runConnect 0,
        .answered 0 (.ok (some ⟨true, false⟩)), .deliver 0, .resume 0, .cancel, .cleanup (.ok ()),
        .cleanup (.ok ()), .cleanup (.ok ()), .connect 1 (.ok ⟨"b", "b"⟩), .runConnect 1,
        .answered 1 (.ok none), .deliver 1, .resume 1]).map
        (fun s => (s.phase, s.generation, s.capabilities)) =
      some (.waitingVideo, 3, ⟨true, false⟩) := by
  decide

end Runs

end Order
end MahoRD.Tauri
