/-
MahoRD/Relay/ConnectRate.lean

The limit on the connects of one address.  `allow_connect` keeps a table of
the instants of the accepted attempts, one entry for each address, and prunes
the entry of the address that asks.  A refused attempt is not entered.

The calls for one address are a sliding window of a minute
(`ofIp_allowConnects`), whatever the calls for other addresses in between; the
count is cast to 32 bits, which loses nothing, since an entry never holds more
than the limit.
-/
import MahoRD.Lib.SlidingWindow
import MahoRD.Relay.Isolation

namespace MahoRD.Relay

/-- A call of `allow_connect`: the instant it reads and the address. -/
structure Attempt where
  stamp : ℕ
  ip : ℕ
  deriving DecidableEq

/-- A minute, in nanoseconds. -/
abbrev minute : ℕ := 60 * 10 ^ 9

/-- The call on its own. -/
def State.attempt (s : State) (connectsPerMinute : UInt32) (a : Attempt) : Bool × State :=
  { s with now := a.stamp }.allowConnect connectsPerMinute a.ip

/-- The calls one after another, each with its answer. -/
def allowConnects (connectsPerMinute : UInt32) : State → List Attempt → List (Attempt × Bool)
  | _, [] => []
  | s, a :: rest =>
    let (allowed, s) := s.attempt connectsPerMinute a
    (a, allowed) :: allowConnects connectsPerMinute s rest

/-- The accepted attempts of an address at instants that pass the test. -/
def accepted (calls : List (Attempt × Bool)) (ip : ℕ) (p : ℕ → Prop) [DecidablePred p] : ℕ :=
  calls.countP fun call => call.2 ∧ call.1.ip = ip ∧ p call.1.stamp

/-- What is kept of an address. -/
def State.hits (s : State) (ip : ℕ) : List ℕ := (s.rates.lookup ip).getD []

variable {cpm : UInt32} {s : State} {ip : ℕ}

/-! ### One call -/

theorem hits_insert (s : State) (ip ip' : ℕ) (hits : List ℕ) :
    State.hits { s with rates := s.rates.insert ip hits } ip' =
      if ip' = ip then hits else s.hits ip' := by
  rw [State.hits, Table.lookup_insert]
  split
  · rfl
  · rfl

theorem cast_length {hits : List ℕ} (h : hits.length ≤ cpm.toNat) :
    UInt32.ofNat hits.length ≥ cpm ↔ cpm.toNat ≤ hits.length := by
  rw [ge_iff_le, UInt32.le_iff_toNat_le, UInt32.toNat_ofNat_of_lt']
  exact Nat.lt_of_le_of_lt h cpm.toNat_lt

theorem attempt_def (s : State) (cpm : UInt32) (a : Attempt) :
    s.attempt cpm a =
      let hits := SlidingWindow.recent minute a.stamp (s.hits a.ip)
      if UInt32.ofNat hits.length ≥ cpm then
        (false, { s with now := a.stamp, rates := s.rates.insert a.ip hits })
      else
        (true, { s with now := a.stamp, rates := s.rates.insert a.ip (hits ++ [a.stamp]) }) :=
  rfl

theorem attempt_eq {a : Attempt} (h : (s.hits a.ip).length ≤ cpm.toNat) :
    s.attempt cpm a =
      let r := SlidingWindow.judge minute cpm.toNat (s.hits a.ip) a.stamp
      (r.1, { s with now := a.stamp, rates := s.rates.insert a.ip r.2 }) := by
  have hlen : (SlidingWindow.recent minute a.stamp (s.hits a.ip)).length ≤ cpm.toNat :=
    (SlidingWindow.length_recent_le a.stamp _).trans h
  have hcast := cast_length hlen
  rw [attempt_def]
  rcases Nat.lt_or_ge (SlidingWindow.recent minute a.stamp (s.hits a.ip)).length cpm.toNat
    with hlt | hge
  · rw [SlidingWindow.judge_true hlt, if_neg fun hfull => Nat.not_le.mpr hlt (hcast.mp hfull)]
  · rw [SlidingWindow.judge_false hge, if_pos (hcast.mpr hge)]

/-! ### The calls for one address -/

/-- No entry holds more than the limit. -/
def Bounded (cpm : UInt32) (s : State) : Prop := ∀ ip, (s.hits ip).length ≤ cpm.toNat

theorem bounded_init (cpm : UInt32) : Bounded cpm State.init := fun _ => Nat.zero_le _

theorem Bounded.attempt (h : Bounded cpm s) (a : Attempt) : Bounded cpm (s.attempt cpm a).2 := by
  intro ip
  rw [attempt_eq (h a.ip)]
  show (State.hits { s with rates := _ } ip).length ≤ _
  rw [hits_insert]
  split
  · exact SlidingWindow.length_judge minute (h a.ip) a.stamp
  · exact h ip

theorem map_fst_allowConnects (cpm : UInt32) (s : State) (as : List Attempt) :
    (allowConnects cpm s as).map (·.1) = as := by
  induction as generalizing s with
  | nil => rfl
  | cons a as ih => exact congrArg (a :: ·) (ih _)

/-- **Per address a sliding window of a minute**: its calls are answered as by a limiter of their
own. -/
theorem ofIp_allowConnects (h : Bounded cpm s) (as : List Attempt) (ip : ℕ) :
    ((allowConnects cpm s as).filter fun call => call.1.ip = ip) =
      (SlidingWindow.answers minute cpm.toNat (s.hits ip)
        ((as.filter fun a => a.ip = ip).map (·.stamp))).map fun r => (⟨r.1, ip⟩, r.2) := by
  induction as generalizing s with
  | nil => rfl
  | cons a as ih =>
    have hnext := ih (h.attempt a)
    have hhits : (s.attempt cpm a).2.hits ip = if ip = a.ip then
        (SlidingWindow.judge minute cpm.toNat (s.hits a.ip) a.stamp).2 else s.hits ip := by
      rw [attempt_eq (h a.ip)]
      exact hits_insert s a.ip ip _
    rw [allowConnects]
    by_cases hip : a.ip = ip
    · obtain rfl := hip
      rw [List.filter_cons_of_pos (by simp), List.filter_cons_of_pos (by simp), hnext, hhits,
        if_pos rfl, List.map_cons, SlidingWindow.answers, List.map_cons, attempt_eq (h a.ip)]
    · rw [List.filter_cons_of_neg (by simpa using hip), List.filter_cons_of_neg (by simpa using hip),
        hnext, hhits, if_neg (Ne.symm hip)]

/-! ### The limit -/

theorem accepted_eq {calls : List (Attempt × Bool)} {log : List (ℕ × Bool)}
    (h : (calls.filter fun call => call.1.ip = ip) = log.map fun r => (⟨r.1, ip⟩, r.2))
    (p : ℕ → Prop) [DecidablePred p] :
    accepted calls ip p = (SlidingWindow.passed log).countP fun t => p t := by
  have hown : accepted calls ip p =
      (calls.filter fun call => call.1.ip = ip).countP fun call => call.2 ∧ p call.1.stamp := by
    rw [accepted, List.countP_filter]
    refine List.countP_congr fun call _ => ?_
    simp only [decide_eq_true_eq, Bool.and_eq_true]
    tauto
  rw [hown, h, List.countP_map, SlidingWindow.passed, List.countP_map, List.countP_filter]
  refine List.countP_congr fun r _ => ?_
  simp [and_comm]

/-- At most `connects_per_minute` attempts of the address are accepted in any half-open window of
a minute, and one is refused only when that many were accepted in the minute before it. -/
structure Limited (cpm : UInt32) (calls : List (Attempt × Bool)) (ip : ℕ) : Prop where
  cap : ∀ w, accepted calls ip (fun t => w ≤ t ∧ t < w + minute) ≤ cpm.toNat
  due : ∀ before now after, calls = before ++ (⟨now, ip⟩, false) :: after →
    accepted before ip (fun t => t ≤ now ∧ now < t + minute) = cpm.toNat

theorem limited_of_fair {calls : List (Attempt × Bool)} {log : List (ℕ × Bool)}
    (h : (calls.filter fun call => call.1.ip = ip) = log.map fun r => (⟨r.1, ip⟩, r.2))
    (hfair : SlidingWindow.Fair minute cpm.toNat log) : Limited cpm calls ip where
  cap w := by
    rw [accepted_eq h]
    exact hfair.cap w
  due before now after heq := by
    rw [heq, List.filter_append, List.filter_cons_of_pos (by simp)] at h
    obtain ⟨first, rest, hlog, hfirst, hrest⟩ := List.map_eq_append_iff.mp h.symm
    obtain ⟨⟨t, b⟩, rest, rfl, hr, -⟩ := List.map_eq_cons_iff.mp hrest
    cases hr
    rw [accepted_eq hfirst.symm]
    exact hfair.due first t rest hlog

theorem limited_allowConnects {as : List Attempt}
    (hmono : (as.filter fun a => a.ip = ip).Pairwise fun a b => a.stamp ≤ b.stamp) :
    Limited cpm (allowConnects cpm State.init as) ip :=
  limited_of_fair (ofIp_allowConnects (bounded_init cpm) as ip)
    (SlidingWindow.fair_answers (List.pairwise_map.mpr hmono))

/-- **The connects of an address are limited**, and what it is answered it would be answered if no
other address had asked. -/
theorem connect_rate (cpm : UInt32) (as : List Attempt) (ip : ℕ)
    (hmono : (as.filter fun a => a.ip = ip).Pairwise fun a b => a.stamp ≤ b.stamp) :
    Limited cpm (allowConnects cpm State.init as) ip ∧
      ((allowConnects cpm State.init as).filter fun call => call.1.ip = ip) =
        allowConnects cpm State.init (as.filter fun a => a.ip = ip) := by
  refine ⟨limited_allowConnects hmono, ?_⟩
  have hown := ofIp_allowConnects (bounded_init cpm) as ip
  have halone := ofIp_allowConnects (bounded_init cpm) (as.filter fun a => a.ip = ip) ip
  simp only [List.filter_filter, Bool.and_self] at halone
  rw [hown, ← halone]
  refine List.filter_eq_self.mpr fun call hcall => ?_
  have hmem := List.mem_map_of_mem (f := (·.1)) hcall
  rw [map_fst_allowConnects] at hmem
  exact (List.mem_filter.mp hmem).2

/-- One connect a minute: the second of two is refused, the third, a minute after the first, is
not; another address goes its own way. -/
theorem connect_rate_one :
    allowConnects 1 State.init [⟨0, 7⟩, ⟨5, 8⟩, ⟨minute - 1, 7⟩, ⟨minute, 7⟩] =
      [(⟨0, 7⟩, true), (⟨5, 8⟩, true), (⟨minute - 1, 7⟩, false), (⟨minute, 7⟩, true)] ∧
    Limited 1 (allowConnects 1 State.init [⟨0, 7⟩, ⟨5, 8⟩, ⟨minute - 1, 7⟩, ⟨minute, 7⟩]) 7 :=
  ⟨by decide, (connect_rate 1 _ 7 (by decide)).1⟩

/-! ### The calls of a run -/

variable {env : Env}

end MahoRD.Relay
