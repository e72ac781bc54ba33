/-
MahoRD/Host/WorkerSupervision.lean

What the Windows service knows of its workers.  Between two of its calls a worker that is alive has
a marker file (`Inv.marked`), a process id with a marker is that of a worker or of no host
(`Inv.others`), and of the workers of the service itself only the recorded one is alive
(`Inv.current`).  At each place of the service a little more holds (`At`).

A worker is known by its process id alone.  The marker is written after the worker has been started
and removed before it is terminated, and it stays when the worker ends by itself; so all of this
depends on what happens in between, and on which ids come again (`Orderly`).
-/
import MahoRD.Host.WorkerSupervisor

namespace MahoRD.WorkerSupervisor

open Machine

/-! ### Places -/

/-- The worker the service has in hand. -/
def State.held (s : State) : Option ℕ :=
  match s.pc with
  | .recording handle => some handle.uid
  | _ => s.worker.map WorkerHandle.uid

/-- The worker that need not have a marker. -/
def State.loose (s : State) : Option ℕ :=
  match s.pc with
  | .recording handle => some handle.uid
  | .opening _ | .terminating .. | .stopFailed _ => s.worker.map WorkerHandle.uid
  | _ => none

/-- No worker is recorded. -/
def Pc.blank : Pc → Bool
  | down | starting | reaping .. | reapOpening .. | reapTerminating .. | reapForgetting ..
  | spawning .. | recording _ => true
  | _ => false

/-- The handle stands for its process, if that is alive. -/
def Holds (s : State) (handle : WorkerHandle) : Prop :=
  handle.uid < s.nextUid ∧ ∀ q ∈ s.procs, q.pid = handle.processId ∨ q.uid = handle.uid →
    q.pid = handle.processId ∧ q.uid = handle.uid ∧ q.worker = some s.service

/-- An entry tells the image of what is not a worker, where there is a marker. -/
def Entries (s : State) (entries : List Entry) : Prop :=
  ∀ e ∈ entries, ∀ q ∈ s.procs, q.worker = none → s.markers q.pid ≠ none → e.pid = q.pid →
    e.image = q.image

/-- The process that is terminated is a worker. -/
def Target (s : State) (handle : Option ℕ) : Prop :=
  ∀ uid, handle = some uid → uid < s.nextUid ∧ ∀ q ∈ s.procs, q.uid = uid → q.worker ≠ none

/-- What holds at a place of the service. -/
def At (s : State) : Pc → Prop
  | .reaping entries failed =>
    Entries s entries ∧ (failed = false → ∀ q ∈ s.procs, q.worker ≠ none → q.entry ∈ entries)
  | .reapOpening pid entries failed =>
    Entries s entries ∧ s.markers pid ≠ none ∧ (∀ q ∈ s.procs, q.pid = pid → q.worker ≠ none) ∧
      (failed = false → ∀ q ∈ s.procs, q.worker ≠ none → q.pid = pid ∨ q.entry ∈ entries)
  | .reapTerminating handle pid entries failed =>
    Entries s entries ∧ Target s handle ∧
      (∀ q ∈ s.procs, q.worker ≠ none → q.pid = pid → handle = some q.uid) ∧
      (failed = false → ∀ q ∈ s.procs, q.worker ≠ none → handle = some q.uid ∨ q.entry ∈ entries)
  | .reapForgetting pid entries failed =>
    Entries s entries ∧ (∀ q ∈ s.procs, q.worker ≠ none → q.pid ≠ pid) ∧
      (failed = false → ∀ q ∈ s.procs, q.worker ≠ none → q.entry ∈ entries)
  | .terminating handle _ =>
    Target s handle ∧ ∀ h, s.worker = some h → ∀ q ∈ s.procs, q.uid = h.uid → handle = some h.uid
  | .stopFailed _ => ∀ h, s.worker = some h → ∀ q ∈ s.procs, q.uid ≠ h.uid
  | .recording handle => Holds s handle
  | _ => True

/-! ### Invariant -/

structure Inv (s : State) : Prop where
  pids : ∀ q ∈ s.procs, ∀ q' ∈ s.procs, q.pid = q'.pid → q = q'
  uids : ∀ q ∈ s.procs, ∀ q' ∈ s.procs, q.uid = q'.uid → q = q'
  fresh : ∀ q ∈ s.procs, q.uid < s.nextUid
  self : s.pc ≠ .down → ∀ q ∈ s.procs, q.pid ≠ s.self
  parent : s.pc ≠ .down → ∀ q ∈ s.procs, q.worker ≠ none → q.worker ≠ some s.service →
    q.parent ≠ s.self
  past : ∀ q ∈ s.procs, ∀ i, q.worker = some i → i ≤ s.service
  image : ∀ q ∈ s.procs, q.worker ≠ none → q.image = imageName
  contents : ∀ pid c, s.markers pid = some c → c = workerFlag
  /-- An instance has at most one worker. -/
  one : ∀ q ∈ s.procs, ∀ q' ∈ s.procs, ∀ i, q.worker = some i → q'.worker = some i → q = q'
  current : s.pc ≠ .down → ∀ q ∈ s.procs, q.worker = some s.service → s.held = some q.uid
  recorded : ∀ h, s.worker = some h → Holds s h
  blank : s.pc.blank = true → s.worker = none
  marked : ∀ q ∈ s.procs, q.worker ≠ none → s.loose ≠ some q.uid → s.markers q.pid ≠ none
  others : ∀ q ∈ s.procs, q.worker = none → s.markers q.pid ≠ none → isHostImage q.image = false
  clean : s.clean = true → ∀ q ∈ s.procs, ∀ i, q.worker = some i → i = s.service
  terminated : ∀ q ∈ s.terminated, q.worker ≠ none
  place : At s s.pc

theorem Inv.init : Inv State.init where
  pids := nofun
  uids := nofun
  fresh := nofun
  self := nofun
  parent := nofun
  past := nofun
  image := nofun
  contents := nofun
  one := nofun
  current := nofun
  recorded := nofun
  blank := fun _ => rfl
  marked := nofun
  others := nofun
  clean := nofun
  terminated := nofun
  place := trivial

/-! ### Processes end -/

variable {s' : State} {pc : Pc} {pid parent : ℕ} {q : Process} {image : String}

theorem Holds.mono {s : State} {h : WorkerHandle} (hs : Holds s h)
    (hprocs : ∀ q ∈ s'.procs, q ∈ s.procs) (hn : s'.nextUid = s.nextUid)
    (hservice : s'.service = s.service) : Holds s' h := by
  rw [Holds, hn, hservice]
  exact ⟨hs.1, fun q hq => hs.2 q (hprocs q hq)⟩

theorem Target.mono {s : State} {handle : Option ℕ} (hs : Target s handle)
    (hprocs : ∀ q ∈ s'.procs, q ∈ s.procs) (hn : s'.nextUid = s.nextUid) : Target s' handle := by
  rw [Target, hn]
  exact fun uid hu => (hs uid hu).imp_right fun h q hq => h q (hprocs q hq)

theorem At.mono {s : State} (hs : At s pc) (hprocs : ∀ q ∈ s'.procs, q ∈ s.procs)
    (hn : s'.nextUid = s.nextUid) (hservice : s'.service = s.service)
    (hmarkers : s'.markers = s.markers) (hworker : s'.worker = s.worker) : At s' pc := by
  have hentries : ∀ {entries}, Entries s entries → Entries s' entries := by
    intro entries h
    rw [Entries, hmarkers]
    exact fun e he q hq => h e he q (hprocs q hq)
  cases pc with
  | reaping entries failed => exact ⟨hentries hs.1, fun hf q hq => hs.2 hf q (hprocs q hq)⟩
  | reapOpening pid entries failed =>
    obtain ⟨he, hm, hw, hl⟩ := hs
    rw [At, hmarkers]
    exact ⟨hentries he, hm, fun q hq => hw q (hprocs q hq), fun hf q hq => hl hf q (hprocs q hq)⟩
  | reapTerminating handle pid entries failed =>
    obtain ⟨he, ht, hw, hl⟩ := hs
    exact ⟨hentries he, ht.mono hprocs hn, fun q hq => hw q (hprocs q hq),
      fun hf q hq => hl hf q (hprocs q hq)⟩
  | reapForgetting pid entries failed =>
    obtain ⟨he, hw, hl⟩ := hs
    exact ⟨hentries he, fun q hq => hw q (hprocs q hq), fun hf q hq => hl hf q (hprocs q hq)⟩
  | terminating handle next =>
    rw [At, hworker]
    exact ⟨hs.1.mono hprocs hn, fun h hh q hq => hs.2 h hh q (hprocs q hq)⟩
  | stopFailed next =>
    rw [At, hworker]
    exact fun h hh q hq => hs h hh q (hprocs q hq)
  | recording handle => exact Holds.mono hs hprocs hn hservice
  | _ => trivial

theorem Inv.shrink {s : State} (h : Inv s) {procs : List Process}
    (hprocs : ∀ q ∈ procs, q ∈ s.procs) : Inv { s with procs } where
  pids := fun q hq q' hq' => h.pids q (hprocs q hq) q' (hprocs q' hq')
  uids := fun q hq q' hq' => h.uids q (hprocs q hq) q' (hprocs q' hq')
  fresh := fun q hq => h.fresh q (hprocs q hq)
  self := fun hpc q hq => h.self hpc q (hprocs q hq)
  parent := fun hpc q hq => h.parent hpc q (hprocs q hq)
  past := fun q hq => h.past q (hprocs q hq)
  image := fun q hq => h.image q (hprocs q hq)
  contents := h.contents
  one := fun q hq q' hq' => h.one q (hprocs q hq) q' (hprocs q' hq')
  current := fun hpc q hq => h.current hpc q (hprocs q hq)
  recorded := fun w hw => (h.recorded w hw).mono hprocs rfl rfl
  blank := h.blank
  marked := fun q hq => h.marked q (hprocs q hq)
  others := fun q hq => h.others q (hprocs q hq)
  clean := fun hc q hq => h.clean hc q (hprocs q hq)
  terminated := h.terminated
  place := h.place.mono hprocs rfl rfl rfl rfl

/-! ### The service goes on -/

variable {s : State}

theorem alive_eq_false {uid : ℕ} : s.alive uid = false ↔ ∀ q ∈ s.procs, q.uid ≠ uid := by
  simp [State.alive]

theorem find_some (h : s.find pid = some q) :
    q ∈ s.procs ∧ q.pid = pid :=
  ⟨List.mem_of_find?_eq_some h, by simpa using List.find?_some h⟩

theorem Inv.find_eq (h : Inv s) (hq : q ∈ s.procs) : s.find q.pid = some q := by
  rcases hf : s.find q.pid with - | q'
  · have := List.find?_eq_none.1 hf q hq
    simp at this
  · obtain ⟨hq', hpid⟩ := find_some hf
    rw [h.pids q' hq' q hq hpid]

/-- No worker that need not have a marker is alive. -/
def State.sound (s : State) : Bool := s.loose.all (¬ s.alive ·)

theorem sound_iff : s.sound = true ↔ ∀ q ∈ s.procs, s.loose ≠ some q.uid := by
  rcases hl : s.loose with - | uid
  · simp [State.sound, hl]
  · simp only [State.sound, hl, Option.all_some, Bool.not_eq_true, decide_eq_true_eq,
      alive_eq_false, ne_eq, Option.some.injEq]
    exact ⟨fun h q hq he => h q hq he.symm, fun h q hq he => h q hq he.symm⟩

theorem Inv.move (h : Inv s) (hdown : s.pc ≠ .down)
    (hheld : { s with pc }.held = s.held)
    (hloose : s.sound = true ∨ { s with pc }.loose = s.loose)
    (hblank : pc.blank = true → s.worker = none) (hat : At s pc) : Inv { s with pc } :=
  { h with
    self := fun _ => h.self hdown
    parent := fun _ => h.parent hdown
    current := fun _ q hq hw => hheld.trans (h.current hdown q hq hw)
    blank := hblank
    marked := fun q hq hw hl => by
      refine h.marked q hq hw ?_
      rcases hloose with hsound | heq
      · exact sound_iff.1 hsound q hq
      · rwa [← heq]
    place := hat.mono (fun _ hq => hq) rfl rfl rfl rfl }

/-- The service has nothing in the middle of its start or its end. -/
def Pc.steady : Pc → Bool
  | down | opening _ | terminating .. | stopFailed _ | recording _ => false
  | _ => true

theorem not_down (hpc : s.pc.steady = true) : s.pc ≠ .down := by
  intro hdown
  rw [hdown] at hpc
  cases hpc

theorem held_of_steady (hpc : s.pc.steady = true) : s.held = s.worker.map WorkerHandle.uid := by
  rw [State.held]
  split
  next hp => rw [hp] at hpc; cases hpc
  · rfl

theorem loose_of_steady (hpc : s.pc.steady = true) : s.loose = none := by
  rw [State.loose]
  split
  next hp => rw [hp] at hpc; cases hpc
  next hp => rw [hp] at hpc; cases hpc
  next hp => rw [hp] at hpc; cases hpc
  next hp => rw [hp] at hpc; cases hpc
  · rfl

theorem Inv.pass (h : Inv s) {place : Pc} (hpc : s.pc = place) (hplace : place.steady = true)
    (hnext : pc.steady = true) (hblank : pc.blank = true → s.worker = none) (hat : At s pc) :
    Inv { s with pc } := by
  have hs : s.pc.steady = true := hpc ▸ hplace
  have hheld : { s with pc }.held = s.held :=
    (held_of_steady hnext).trans (held_of_steady hs).symm
  have hloose : { s with pc }.loose = s.loose :=
    (loose_of_steady hnext).trans (loose_of_steady hs).symm
  exact h.move (not_down hs) hheld (Or.inr hloose) hblank hat

theorem Inv.terminate (h : Inv s) {handle : Option ℕ} (ht : Target s handle) :
    Inv (s.terminate handle) :=
  have h' : Inv { s with procs := s.procs.filter (handle ≠ some ·.uid) } :=
    h.shrink fun _ => List.mem_of_mem_filter
  { h' with
    terminated := fun q hq => by
      rcases List.mem_append.1 hq with hq | hq
      · rw [List.mem_filter, decide_eq_true_eq] at hq
        exact (ht q.uid hq.2).2 q hq.1 rfl
      · exact h.terminated q hq }

theorem not_terminated {handle : Option ℕ} (hq : q ∈ (s.terminate handle).procs) :
    q ∈ s.procs ∧ handle ≠ some q.uid := by
  simpa [State.terminate] using hq

theorem Inv.drop (h : Inv s) (hdown : s.pc ≠ .down) (hnot : ∀ handle, s.pc ≠ .recording handle)
    (hdead : ∀ q ∈ s.procs, s.worker.map WorkerHandle.uid ≠ some q.uid)
    (hat : ∀ s : State, At s pc) : Inv { s with worker := none, pc } := by
  have hheld : s.held = s.worker.map WorkerHandle.uid := by
    unfold State.held
    split
    next handle hpc => exact absurd hpc (hnot handle)
    · rfl
  have hloose : ∀ q ∈ s.procs, s.loose ≠ some q.uid := by
    intro q hq
    unfold State.loose
    split
    next handle hpc => exact absurd hpc (hnot handle)
    · exact hdead q hq
    · exact hdead q hq
    · exact hdead q hq
    · nofun
  exact
    { h with
      self := fun _ => h.self hdown
      parent := fun _ => h.parent hdown
      current := fun _ q hq hw => absurd (hheld.symm.trans (h.current hdown q hq hw)) (hdead q hq)
      recorded := nofun
      blank := fun _ => rfl
      marked := fun q hq hw _ => h.marked q hq hw (hloose q hq)
      place := hat _ }

/-! ### Starting and ending -/

theorem free_iff : s.free pid = true ↔
    (∀ q ∈ s.procs, q.pid ≠ pid) ∧ (s.pc = .down ∨ pid ≠ s.self) ∧ s.pc.held ≠ some pid := by
  simp [State.free]

theorem Inv.start (h : Inv s) (hdown : s.pc = .down) {self : ℕ} (hfree : s.free self = true)
    (hparent : ∀ q ∈ s.procs, q.worker ≠ none → q.parent ≠ self) :
    Inv { s with
      self, service := s.service + 1, worker := none, clean := false, pc := .starting } :=
  { h with
    self := fun _ => (free_iff.1 hfree).1
    parent := fun _ q hq hw _ => hparent q hq hw
    past := fun q hq i hi => Nat.le_succ_of_le (h.past q hq i hi)
    current := fun _ q hq hw => absurd (h.past q hq _ hw) (Nat.not_succ_le_self _)
    recorded := nofun
    blank := fun _ => rfl
    marked := fun q hq hw _ => h.marked q hq hw (by simp [State.loose, hdown])
    clean := nofun
    place := trivial }

theorem Inv.crash (h : Inv s) (hsound : s.sound = true) :
    Inv { s with worker := none, pc := .down } :=
  { h with
    self := fun hd => absurd rfl hd
    parent := fun hd => absurd rfl hd
    current := fun hd => absurd rfl hd
    recorded := nofun
    blank := fun _ => rfl
    marked := fun q hq hw _ => h.marked q hq hw (sound_iff.1 hsound q hq)
    place := trivial }

theorem unique_cons {f : Process → ℕ} {p : Process} {procs : List Process}
    (h : ∀ q ∈ procs, ∀ q' ∈ procs, f q = f q' → q = q') (hp : ∀ q ∈ procs, f q ≠ f p) :
    ∀ q ∈ p :: procs, ∀ q' ∈ p :: procs, f q = f q' → q = q' := by
  intro q hq q' hq' he
  rcases List.mem_cons.1 hq with rfl | hold <;> rcases List.mem_cons.1 hq' with rfl | hold'
  · rfl
  · exact absurd he.symm (hp q' hold')
  · exact absurd he (hp q hold)
  · exact h q hold q' hold' he

theorem Inv.uid_ne (h : Inv s) (hq : q ∈ s.procs) : q.uid ≠ s.nextUid :=
  Nat.ne_of_lt (h.fresh q hq)

theorem Inv.fresh_add (h : Inv s) {worker : Option ℕ} :
    ∀ q ∈ (s.addProcess pid parent image worker).procs, q.uid < s.nextUid + 1 := by
  intro q hq
  rcases List.mem_cons.1 hq with rfl | hq
  · exact Nat.lt_succ_self _
  · exact Nat.lt_succ_of_lt (h.fresh q hq)

theorem Inv.self_add (h : Inv s) (hdown : s.pc ≠ .down)
    {worker : Option ℕ} (hfree : s.free pid = true) :
    ∀ q ∈ (s.addProcess pid parent image worker).procs, q.pid ≠ s.self := by
  intro q hq
  rcases List.mem_cons.1 hq with rfl | hq
  · exact (free_iff.1 hfree).2.1.resolve_left hdown
  · exact h.self hdown q hq

theorem Inv.create (h : Inv s) (hfree : s.free pid = true)
    (hworker : ∀ w, s.worker = some w → w.processId ≠ pid)
    (hmarker : s.markers pid ≠ none → s.pc.entries = none ∧ isHostImage image = false) :
    Inv (s.addProcess pid parent image none) := by
  obtain ⟨hpids, -, hheld⟩ := free_iff.1 hfree
  have hholds : ∀ w, Holds s w → w.processId ≠ pid →
      Holds (s.addProcess pid parent image none) w := by
    rintro w ⟨hlt, hw⟩ hne
    refine ⟨Nat.lt_succ_of_lt hlt, fun q hq ho => ?_⟩
    rcases List.mem_cons.1 hq with rfl | hq
    · rcases ho with ho | ho
      · exact absurd ho.symm hne
      · exact absurd ho.symm (Nat.ne_of_lt hlt)
    · exact hw q hq ho
  have htarget : ∀ handle, Target s handle →
      Target (s.addProcess pid parent image none) handle := by
    intro handle ht uid hu
    obtain ⟨hlt, hw⟩ := ht uid hu
    refine ⟨Nat.lt_succ_of_lt hlt, fun q hq hq' => ?_⟩
    rcases List.mem_cons.1 hq with rfl | hq
    · exact absurd hq'.symm (Nat.ne_of_lt hlt)
    · exact hw q hq hq'
  have hworkers : ∀ q ∈ (s.addProcess pid parent image none).procs, q.worker ≠ none →
      q ∈ s.procs := by
    intro q hq hw
    rcases List.mem_cons.1 hq with rfl | hq
    · exact absurd rfl hw
    · exact hq
  have hplace : ∀ pc, At s pc → (s.markers pid ≠ none → pc.entries = none) → pc.held ≠ some pid →
      At (s.addProcess pid parent image none) pc := by
    intro pc hp hreap hheld
    -- While the service reaps, the id has no marker.
    have hentries : ∀ entries, pc.entries = some entries → Entries s entries →
        Entries (s.addProcess pid parent image none) entries := by
      intro entries hpc he e hmem q hq hw hm hid
      rcases List.mem_cons.1 hq with rfl | hq
      · rw [hreap hm] at hpc
        cases hpc
      · exact he e hmem q hq hw hm hid
    cases pc with
    | reaping entries failed =>
      exact ⟨hentries _ rfl hp.1, fun hf q hq hw => hp.2 hf q (hworkers q hq hw) hw⟩
    | reapOpening pid' entries failed =>
      obtain ⟨he, hm, hw, hl⟩ := hp
      refine ⟨hentries _ rfl he, hm, fun q hq hid => ?_,
        fun hf q hq hw => hl hf q (hworkers q hq hw) hw⟩
      rcases List.mem_cons.1 hq with rfl | hq
      · obtain rfl : pid = pid' := hid
        cases hreap hm
      · exact hw q hq hid
    | reapTerminating handle pid' entries failed =>
      obtain ⟨he, ht, hw, hl⟩ := hp
      exact ⟨hentries _ rfl he, htarget handle ht, fun q hq hw' => hw q (hworkers q hq hw') hw',
        fun hf q hq hw' => hl hf q (hworkers q hq hw') hw'⟩
    | reapForgetting pid' entries failed =>
      obtain ⟨he, hw, hl⟩ := hp
      exact ⟨hentries _ rfl he, fun q hq hw' => hw q (hworkers q hq hw') hw',
        fun hf q hq hw' => hl hf q (hworkers q hq hw') hw'⟩
    | terminating handle next =>
      refine ⟨htarget handle hp.1, fun w hw q hq hu => ?_⟩
      rcases List.mem_cons.1 hq with rfl | hq
      · exact absurd hu.symm (Nat.ne_of_lt (h.recorded w hw).1)
      · exact hp.2 w hw q hq hu
    | stopFailed next =>
      intro w hw q hq hu
      rcases List.mem_cons.1 hq with rfl | hq
      · exact absurd hu.symm (Nat.ne_of_lt (h.recorded w hw).1)
      · exact hp w hw q hq hu
    | recording w =>
      refine hholds w hp ?_
      rintro rfl
      exact hheld rfl
    | _ => trivial
  exact
    { h with
      pids := unique_cons h.pids hpids
      uids := unique_cons h.uids fun _ => h.uid_ne
      fresh := h.fresh_add
      self := fun hd => h.self_add hd hfree
      parent := fun hd q hq hw => h.parent hd q (hworkers q hq hw) hw
      past := fun q hq i hi => h.past q (hworkers q hq (by rw [hi]; nofun)) i hi
      image := fun q hq hw => h.image q (hworkers q hq hw) hw
      one := fun q hq q' hq' i hi hi' => h.one q (hworkers q hq (by rw [hi]; nofun)) q'
        (hworkers q' hq' (by rw [hi']; nofun)) i hi hi'
      current := fun hd q hq hw => h.current hd q (hworkers q hq (by rw [hw]; nofun)) hw
      recorded := fun w hw => hholds w (h.recorded w hw) (hworker w hw)
      marked := fun q hq hw hl => h.marked q (hworkers q hq hw) hw hl
      others := fun q hq hw hm => by
        rcases List.mem_cons.1 hq with rfl | hq
        · exact (hmarker hm).2
        · exact h.others q hq hw hm
      clean := fun hc q hq i hi => h.clean hc q (hworkers q hq (by rw [hi]; nofun)) i hi
      place := hplace s.pc h.place (fun hm => (hmarker hm).1) hheld }

theorem Inv.createWorker (h : Inv s) {sessionId : ℕ} {desktop : DesktopKind}
    (hpc : s.pc = .spawning sessionId desktop) (hfree : s.free pid = true) :
    Inv { s.addProcess pid s.self imageName (some s.service) with
      pc := .recording ⟨pid, sessionId, desktop, s.nextUid⟩ } := by
  have hpids := (free_iff.1 hfree).1
  have hdown : s.pc ≠ .down := by rw [hpc]; nofun
  have hworker : s.worker = none := h.blank (by rw [hpc]; rfl)
  have hnone : ∀ q ∈ s.procs, q.worker ≠ some s.service := fun q hq hw => by
    have := h.current hdown q hq hw
    simp [State.held, hpc, hworker] at this
  exact
    { h with
      pids := unique_cons h.pids hpids
      uids := unique_cons h.uids fun _ => h.uid_ne
      fresh := h.fresh_add
      self := fun _ => h.self_add hdown hfree
      parent := fun _ q hq hw hn => by
        rcases List.mem_cons.1 hq with rfl | hq
        · exact absurd rfl hn
        · exact h.parent hdown q hq hw hn
      past := fun q hq i hi => by
        rcases List.mem_cons.1 hq with rfl | hq
        · exact Nat.le_of_eq (Option.some.inj hi).symm
        · exact h.past q hq i hi
      image := fun q hq hw => by
        rcases List.mem_cons.1 hq with rfl | hq
        · rfl
        · exact h.image q hq hw
      one := fun q hq q' hq' i hi hi' => by
        rcases List.mem_cons.1 hq with rfl | hq <;> rcases List.mem_cons.1 hq' with rfl | hq'
        · rfl
        · rw [← Option.some.inj hi] at hi'
          exact absurd hi' (hnone q' hq')
        · rw [← Option.some.inj hi'] at hi
          exact absurd hi (hnone q hq)
        · exact h.one q hq q' hq' i hi hi'
      current := fun _ q hq hw => by
        rcases List.mem_cons.1 hq with rfl | hq
        · rfl
        · exact absurd hw (hnone q hq)
      recorded := fun w hw => nomatch hworker.symm.trans hw
      blank := fun _ => hworker
      marked := fun q hq hw hl => by
        rcases List.mem_cons.1 hq with rfl | hq
        · exact absurd rfl hl
        · exact h.marked q hq hw (by simp [State.loose, hpc])
      others := fun q hq hw => by
        rcases List.mem_cons.1 hq with rfl | hq
        · cases hw
        · exact h.others q hq hw
      clean := fun hc q hq i hi => by
        rcases List.mem_cons.1 hq with rfl | hq
        · exact (Option.some.inj hi).symm
        · exact h.clean hc q hq i hi
      place := by
        refine ⟨Nat.lt_succ_self _, fun q hq ho => ?_⟩
        rcases List.mem_cons.1 hq with rfl | hq
        · exact ⟨rfl, rfl, rfl⟩
        · rcases ho with ho | ho
          · exact absurd ho (hpids q hq)
          · exact absurd ho (h.uid_ne hq) }

/-! ### Markers -/

/-- The worker that has been started is recorded; it has a marker, unless it has ended. -/
theorem Inv.record (h : Inv s) {handle : WorkerHandle} (hpc : s.pc = .recording handle)
    (ok : Bool) (hok : ok = true ∨ s.sound = true) :
    Inv { (if ok then s.recordWorker handle.processId else s) with
      worker := some handle, pc := .ready } := by
  have hholds : Holds s handle := by
    have := h.place
    rwa [hpc] at this
  have hdown : s.pc ≠ .down := by rw [hpc]; nofun
  have hloose : s.loose = some handle.uid := by simp [State.loose, hpc]
  have hcurrent : ∀ q ∈ s.procs, q.worker = some s.service → some handle.uid = some q.uid := by
    intro q hq hw
    have := h.current hdown q hq hw
    rwa [State.held, hpc] at this
  cases ok with
  | false =>
    have hsound := sound_iff.1 (hok.resolve_left nofun)
    exact
      { h with
        self := fun _ => h.self hdown
        parent := fun _ => h.parent hdown
        current := fun _ => hcurrent
        recorded := fun w hw => by
          obtain rfl := Option.some.inj hw
          exact hholds
        blank := nofun
        marked := fun q hq hw _ => h.marked q hq hw (hsound q hq)
        place := trivial }
  | true =>
    exact
      { h with
        self := fun _ => h.self hdown
        parent := fun _ => h.parent hdown
        contents := fun pid c hc => by
          simp only [State.recordWorker, if_true, Function.update_apply] at hc
          split at hc
          · exact (Option.some.inj hc).symm
          · exact h.contents pid c hc
        current := fun _ => hcurrent
        recorded := fun w hw => by
          obtain rfl := Option.some.inj hw
          exact hholds
        blank := nofun
        marked := fun q hq hw _ => by
          simp only [State.recordWorker, if_true, Function.update_apply]
          split
          · nofun
          next hne =>
            refine h.marked q hq hw fun hl => hne ?_
            exact (hholds.2 q hq (Or.inr (Option.some.inj (hl.symm.trans hloose)))).1
        others := fun q hq hw hm => by
          simp only [State.recordWorker, if_true, Function.update_apply] at hm
          split at hm
          next he =>
            have := (hholds.2 q hq (Or.inl he)).2.2
            rw [show q.worker = none from hw] at this
            cases this
          · exact h.others q hq hw hm
        place := trivial }

theorem Inv.forget (h : Inv s) (hdown : s.pc ≠ .down)
    (hheld : { s with pc }.held = s.held) (hloose : s.loose = none)
    (hpid : ∀ q ∈ s.procs, q.worker ≠ none → { s with pc }.loose ≠ some q.uid → q.pid ≠ pid)
    (hblank : pc.blank = true → s.worker = none) (hat : At { s.forgetWorker pid with pc } pc) :
    Inv { s.forgetWorker pid with pc } :=
  { h with
    self := fun _ => h.self hdown
    parent := fun _ => h.parent hdown
    contents := fun pid' c hc => by
      simp only [State.forgetWorker, Function.update_apply] at hc
      split at hc
      · cases hc
      · exact h.contents pid' c hc
    current := fun _ q hq hw => hheld.trans (h.current hdown q hq hw)
    blank := hblank
    marked := fun q hq hw hl => by
      simp only [State.forgetWorker, Function.update_apply]
      rw [if_neg (hpid q hq hw hl)]
      exact h.marked q hq hw (by rw [hloose]; nofun)
    others := fun q hq hw hm => by
      simp only [State.forgetWorker, Function.update_apply] at hm
      split at hm
      · exact absurd rfl hm
      · exact h.others q hq hw hm
    place := hat }

/-! ### Reaping -/

theorem isReapableWorker_host {command : String} (h : isReapableWorker image command = true) :
    isHostImage image = true := by
  simp only [isReapableWorker, Bool.decide_and, Bool.and_eq_true, decide_eq_true_eq] at h
  exact h.1

theorem isReapableWorker_empty (image : String) : isReapableWorker image "" = false := by
  have : eqIgnoreAsciiCase [] workerFlag.toList = false := by decide
  simp [isReapableWorker, this]

theorem isReapableWorker_worker : isReapableWorker imageName workerFlag = true := by
  decide

theorem Inv.snapshot (h : Inv s) (hpc : s.pc = .starting) :
    Inv { s with pc := .reaping (⟨s.self, 0, imageName⟩ :: s.procs.map Process.entry) false } := by
  have hdown : s.pc ≠ .down := by rw [hpc]; nofun
  refine h.pass hpc rfl rfl (fun _ => h.blank (by rw [hpc]; rfl))
    ⟨fun e he q hq _ _ hid => ?_, fun _ q hq _ => ?_⟩
  · rcases List.mem_cons.1 he with rfl | he
    · exact absurd hid.symm (h.self hdown q hq)
    · obtain ⟨q', hq', rfl⟩ := List.mem_map.1 he
      rw [h.pids q' hq' q hq hid]
      rfl
  · exact List.mem_cons_of_mem _ (List.mem_map_of_mem hq)

theorem Inv.reapEntry (h : Inv s) {entry : Entry} {entries : List Entry} {failed : Bool}
    (hpc : s.pc = .reaping (entry :: entries) failed) (read : Bool) :
    Inv (s.reapEntry entry entries failed read) := by
  have hdown : s.pc ≠ .down := by rw [hpc]; nofun
  have hblank : s.worker = none := h.blank (by rw [hpc]; rfl)
  have hat := h.place
  rw [hpc] at hat
  obtain ⟨hentries, hleft⟩ := hat
  have htail : Entries s entries := fun e he => hentries e (List.mem_cons_of_mem _ he)
  simp only [State.reapEntry]
  generalize hcommand : (if read then (s.markers entry.pid).getD "" else "") = command
  split
  next hreap =>
    obtain ⟨-, -, hreap⟩ := hreap
    have hmarker : s.markers entry.pid ≠ none := fun hm => by
      obtain rfl : "" = command := by simpa [hm] using hcommand
      rw [isReapableWorker_empty] at hreap
      cases hreap
    refine h.pass hpc rfl rfl (fun _ => hblank)
      ⟨htail, hmarker, fun q hq hid hw => ?_, fun hf q hq hw => ?_⟩
    · have himage := hentries entry List.mem_cons_self q hq hw (by rwa [hid]) hid.symm
      have hhost := isReapableWorker_host hreap
      rw [himage, h.others q hq hw (by rwa [hid])] at hhost
      cases hhost
    · rw [Bool.or_eq_false_iff] at hf
      refine (List.mem_cons.1 (hleft hf.1 q hq hw)).imp_left fun he => ?_
      rw [← he]
      rfl
  next hreap =>
    refine h.pass hpc rfl rfl (fun _ => hblank)
      ⟨htail, fun hf q hq hw => ?_⟩
    rw [Bool.or_eq_false_iff] at hf
    refine (List.mem_cons.1 (hleft hf.1 q hq hw)).resolve_left ?_
    rintro rfl
    have hm : s.markers q.pid ≠ none := h.marked q hq hw (by simp [State.loose, hpc])
    obtain ⟨c, hc⟩ := Option.ne_none_iff_exists'.1 hm
    have hread : read = true := by
      have := hf.2
      simpa [Process.entry, hc] using this
    refine hreap ⟨h.self hdown q hq, h.parent hdown q hq hw fun hcur => ?_, ?_⟩
    · have := h.current hdown q hq hcur
      simp [State.held, hpc, hblank] at this
    · have hflag : command = workerFlag := by
        simpa [Process.entry, hread, hc, h.contents _ _ hc] using hcommand.symm
      rw [hflag, Process.entry, h.image q hq hw]
      exact isReapableWorker_worker

theorem Inv.endReap (h : Inv s) {entries : List Entry} {failed : Bool}
    (hpc : s.pc = .reaping entries failed) :
    Inv { s with clean := entries = [] ∧ !failed, pc := .ready } := by
  have hat := h.place
  rw [hpc] at hat
  have h' : Inv { s with pc := .ready } := h.pass hpc rfl rfl nofun trivial
  exact
    { h' with
      clean := fun hc q hq i hi => by
        simp only [Bool.not_eq_true', decide_eq_true_eq] at hc
        obtain ⟨rfl, hf⟩ := hc
        exact absurd (hat.2 hf q hq (by rw [hi]; nofun)) List.not_mem_nil }

theorem Inv.reapOpen (h : Inv s) {entries : List Entry} {failed : Bool}
    (hpc : s.pc = .reapOpening pid entries failed) :
    Inv { s with pc := .reapTerminating ((s.find pid).map Process.uid) pid entries failed } := by
  have hat := h.place
  rw [hpc] at hat
  obtain ⟨hentries, -, hworker, hleft⟩ := hat
  have hfind : ∀ q ∈ s.procs, q.pid = pid → (s.find pid).map Process.uid = some q.uid := by
    rintro q hq rfl
    rw [h.find_eq hq]
    rfl
  refine h.pass hpc rfl rfl (fun _ => h.blank (by rw [hpc]; rfl))
    ⟨hentries, fun uid hu => ?_, fun q hq _ => hfind q hq,
      fun hf q hq hw => (hleft hf q hq hw).imp_left (hfind q hq)⟩
  obtain ⟨q, hq, rfl⟩ := Option.map_eq_some_iff.1 hu
  obtain ⟨hmem, hid⟩ := find_some hq
  refine ⟨h.fresh q hmem, fun q' hq' he => ?_⟩
  rw [h.uids q' hq' q hmem he]
  exact hworker q hmem hid

theorem Inv.reapOpenFailed (h : Inv s) {entries : List Entry} {failed : Bool}
    (hpc : s.pc = .reapOpening pid entries failed) :
    Inv { s with pc := .reaping entries true } := by
  have hat := h.place
  rw [hpc] at hat
  exact h.pass hpc rfl rfl (fun _ => h.blank (by rw [hpc]; rfl)) ⟨hat.1, nofun⟩

theorem Inv.reapTerminate (h : Inv s) {handle : Option ℕ} {entries : List Entry}
    {failed : Bool} (hpc : s.pc = .reapTerminating handle pid entries failed) :
    Inv { s.terminate handle with pc := .reapForgetting pid entries failed } := by
  have hat := h.place
  rw [hpc] at hat
  obtain ⟨hentries, htarget, hworker, hleft⟩ := hat
  refine (h.terminate htarget).pass hpc rfl rfl
    (fun _ => h.blank (by rw [hpc]; rfl))
    ⟨fun e he q hq => hentries e he q (not_terminated hq).1, fun q hq hw hid => ?_,
      fun hf q hq hw => ?_⟩
  · obtain ⟨hmem, hne⟩ := not_terminated hq
    exact hne (hworker q hmem hw hid)
  · obtain ⟨hmem, hne⟩ := not_terminated hq
    exact (hleft hf q hmem hw).resolve_left hne

theorem Inv.reapTerminateFailed (h : Inv s) {handle : Option ℕ} {entries : List Entry}
    {failed : Bool} (hpc : s.pc = .reapTerminating handle pid entries failed)
    (hdead : ∀ q ∈ s.procs, handle ≠ some q.uid) :
    Inv { s with pc := .reapForgetting pid entries true } := by
  have hat := h.place
  rw [hpc] at hat
  obtain ⟨hentries, -, hworker, -⟩ := hat
  exact h.pass hpc rfl rfl (fun _ => h.blank (by rw [hpc]; rfl))
    ⟨hentries, fun q hq hw hid => hdead q hq (hworker q hq hw hid), nofun⟩

theorem Inv.reapForget (h : Inv s) {entries : List Entry} {failed : Bool}
    (hpc : s.pc = .reapForgetting pid entries failed) (ok : Bool) :
    Inv { (if ok then s.forgetWorker pid else s) with pc := .reaping entries (failed || !ok) } := by
  have hdown : s.pc ≠ .down := by rw [hpc]; nofun
  have hblank : s.worker = none := h.blank (by rw [hpc]; rfl)
  have hat := h.place
  rw [hpc] at hat
  obtain ⟨hentries, hpid, hleft⟩ := hat
  cases ok with
  | false =>
    exact h.pass hpc rfl rfl (fun _ => hblank)
      ⟨hentries, fun hf => by simp at hf⟩
  | true =>
    refine h.forget hdown (by simp [State.held, hpc]) (by simp [State.loose, hpc])
      (fun q hq hw _ => hpid q hq hw) (fun _ => hblank)
      ⟨fun e he q hq hw hm => hentries e he q hq hw fun hn => hm ?_,
        fun hf => hleft (by simpa using hf)⟩
    simp only [State.forgetWorker, Function.update_apply, hn, ite_self]

/-! ### Stopping -/

theorem Inv.goOn (h : Inv s) (hpc : s.pc = .ready) (hworker : s.worker = none) (next : Next) :
    Inv (s.goOn next) := by
  cases next with
  | tick =>
    exact h.pass hpc rfl rfl nofun trivial
  | spawn sessionId desktop =>
    exact h.pass hpc rfl rfl (fun _ => hworker) trivial
  | exit =>
    have := h.crash (by simp [State.sound, State.loose, hpc])
    rwa [← hworker] at this

theorem Inv.stopWorker (h : Inv s) (hpc : s.pc = .ready) (next : Next) :
    Inv (s.stopWorker next) := by
  rw [State.stopWorker]
  split
  · exact h.pass hpc rfl rfl nofun trivial
  next hworker => exact h.goOn hpc (by simpa using hworker) next

theorem Inv.tick (h : Inv s) (hpc : s.pc = .ready) (console : ConsoleState) :
    Inv (s.act (decideAction console
      (s.worker.map fun handle => ⟨handle.sessionId, handle.desktop⟩))) := by
  rw [decideAction]
  split
  · exact h.stopWorker hpc .tick
  next sessionId _ =>
    rcases hworker : s.worker with - | handle
    · exact h.goOn hpc hworker (.spawn sessionId console.desktop)
    · dsimp only [Option.map_some]
      split
      · rw [State.act, if_pos (by rw [hworker]; rfl)]
        exact h.pass hpc rfl rfl nofun trivial
      · exact h.stopWorker hpc _

theorem Inv.forgetting (h : Inv s) {next : Next} (hpc : s.pc = .forgetting next)
    {handle : WorkerHandle} (hworker : s.worker = some handle) (ok : Bool) :
    Inv { (if ok then s.forgetWorker handle.processId else s) with pc := .opening next } := by
  have hdown : s.pc ≠ .down := by rw [hpc]; nofun
  cases ok with
  | false =>
    exact h.move hdown (by simp [State.held, hpc])
      (Or.inl (by simp [State.sound, State.loose, hpc])) nofun trivial
  | true =>
    refine h.forget hdown (by simp [State.held, hpc]) (by simp [State.loose, hpc])
      (fun q hq _ hl hid => hl ?_) nofun trivial
    have := ((h.recorded handle hworker).2 q hq (Or.inl hid)).2.1
    simp [State.loose, hworker, this]

theorem Inv.opening (h : Inv s) {next : Next} (hpc : s.pc = .opening next)
    {handle : WorkerHandle} (hworker : s.worker = some handle) :
    Inv { s with pc := .terminating ((s.find handle.processId).map Process.uid) next } := by
  have hholds := (h.recorded handle hworker).2
  refine h.move (by rw [hpc]; nofun) (by simp [State.held, hpc])
    (Or.inr (by simp [State.loose, hpc])) nofun ⟨fun uid hu => ?_, fun w hw q hq hid => ?_⟩
  · obtain ⟨q, hq, rfl⟩ := Option.map_eq_some_iff.1 hu
    obtain ⟨hmem, hid⟩ := find_some hq
    refine ⟨h.fresh q hmem, fun q' hq' he => ?_⟩
    rw [h.uids q' hq' q hmem he, (hholds q hmem (Or.inl hid)).2.2]
    nofun
  · obtain rfl := Option.some.inj (hw.symm.trans hworker)
    rw [← (hholds q hq (Or.inr hid)).1, h.find_eq hq, ← hid]
    rfl

theorem Inv.stopFailed (h : Inv s) {next : Next} (hpc : s.pc ≠ .down)
    (hheld : { s with pc := .stopFailed next }.held = s.held)
    (hloose : { s with pc := .stopFailed next }.loose = s.loose)
    (hdead : ∀ w, s.worker = some w → ∀ q ∈ s.procs, q.uid ≠ w.uid) :
    Inv { s with pc := .stopFailed next } :=
  h.move hpc hheld (Or.inr hloose) nofun hdead

theorem Inv.terminating (h : Inv s) {handle : Option ℕ} {next : Next}
    (hpc : s.pc = .terminating handle next) :
    Inv ({ s.terminate handle with worker := none }.goOn next) := by
  have hat := h.place
  rw [hpc] at hat
  have hdead : ∀ q ∈ (s.terminate handle).procs, s.worker.map WorkerHandle.uid ≠ some q.uid := by
    intro q hq hw
    obtain ⟨w, hw, hu⟩ := Option.map_eq_some_iff.1 hw
    obtain ⟨hmem, hne⟩ := not_terminated hq
    rw [hat.2 w hw q hmem hu.symm, hu] at hne
    exact hne rfl
  have h' := h.terminate hat.1
  have hdown : (s.terminate handle).pc ≠ .down := by
    change s.pc ≠ _
    rw [hpc]
    nofun
  have hnot : ∀ w, (s.terminate handle).pc ≠ .recording w := by
    intro w
    change s.pc ≠ _
    rw [hpc]
    nofun
  cases next <;> exact h'.drop hdown hnot hdead fun _ => trivial

theorem Inv.ended (h : Inv s) (hdown : s.pc ≠ .down) (hnot : ∀ handle, s.pc ≠ .recording handle)
    {handle : WorkerHandle} (hworker : s.worker = some handle)
    (hdead : s.alive handle.uid = false) (next : Next) :
    Inv ({ s with worker := none }.goOn next) := by
  have hdead' : ∀ q ∈ s.procs, s.worker.map WorkerHandle.uid ≠ some q.uid := by
    intro q hq he
    rw [hworker] at he
    exact alive_eq_false.1 hdead q hq (Option.some.inj he).symm
  cases next <;> exact h.drop hdown hnot hdead' fun _ => trivial

/-! ### Runs -/

/-- The process that is open. -/
def Pc.target : Pc → Option ℕ
  | reapTerminating handle _ _ _ | terminating handle _ => handle
  | _ => none

/-- The service is not crashed, and no call fails, where a worker that is alive has no marker; its
queries do not fail on a worker that is alive, nor take one for running that has ended; and no
process comes to an id that the service has in mind. -/
def Orderly (s : State) : Label → Prop
  | .start self => ∀ q ∈ s.procs, q.worker ≠ none → q.parent ≠ self
  | .crash => s.sound = true
  | .create pid _ image =>
    (s.worker.all (·.processId ≠ pid)) = true ∧
      (s.markers pid ≠ none → s.pc.entries = none ∧ isHostImage image = false)
  | .openProcess ok => ok = true ∨ s.sound = true
  | .terminate ok => ok = true ∨ (s.pc.target.all (¬ s.alive ·)) = true
  | .query answer =>
    (s.worker.all fun handle =>
      if s.alive handle.uid then answer ≠ none else answer ≠ some stillActive) = true
  | .record ok => ok = true ∨ s.sound = true
  | _ => True

instance (s : State) (label : Label) : Decidable (Orderly s label) := by
  cases label <;> unfold Orderly <;> infer_instance

theorem Inv.query_false (h : Inv s) {answer : Option ℕ} (ho : Orderly s (.query answer))
    {handle : WorkerHandle} (hworker : s.worker = some handle)
    (hguard : ¬ ((s.find handle.processId).isSome ∧ answer.any (· ≠ stillActive)))
    (hne : answer ≠ some stillActive) : s.alive handle.uid = false := by
  by_contra halive
  rw [Bool.not_eq_false] at halive
  obtain ⟨q, hq, hu⟩ : ∃ q ∈ s.procs, q.uid = handle.uid := by
    simpa [State.alive] using halive
  have hid := ((h.recorded handle hworker).2 q hq (Or.inr hu)).1
  simp only [Orderly, hworker, Option.all_some, halive, if_true, decide_eq_true_eq] at ho
  obtain ⟨code, rfl⟩ := Option.ne_none_iff_exists'.1 ho
  refine hguard ⟨by rw [← hid, h.find_eq hq]; rfl, ?_⟩
  have : code ≠ stillActive := fun he => hne (by rw [he])
  simpa using this

/-- **The invariant is kept** by every step that is in order. -/
theorem Inv.keep (h : Inv s) {label : Label} (ho : Orderly s label)
    (hs : step s label = some s') : Inv s' := by
  cases label with
  | start self =>
    simp only [step] at hs
    split at hs
    next hf => cases hs; exact h.start hf.1 hf.2 ho
    · cases hs
  | crash =>
    simp only [step] at hs
    split at hs <;> cases hs
    exact h.crash ho
  | exits uid => cases hs; exact h.shrink fun _ => List.mem_of_mem_filter
  | create pid parent image =>
    simp only [step] at hs
    split at hs
    next hf =>
      cases hs
      refine h.create hf (fun w hw => ?_) ho.2
      have := ho.1
      rw [hw] at this
      simpa using this
    · cases hs
  | snapshot ok =>
    simp only [step] at hs
    split at hs
    next hpc =>
      split at hs <;> cases hs
      · exact h.snapshot hpc
      · exact h.pass hpc rfl rfl (by rintro ⟨⟩) trivial
    · cases hs
  | reapEntry read =>
    simp only [step] at hs
    split at hs
    next hpc => cases hs; exact h.reapEntry hpc read
    · cases hs
  | endReap =>
    simp only [step] at hs
    split at hs
    next hpc => cases hs; exact h.endReap hpc
    · cases hs
  | openProcess ok =>
    simp only [step] at hs
    split at hs
    next hpc =>
      split at hs <;> cases hs
      · exact h.reapOpen hpc
      · exact h.reapOpenFailed hpc
    next next hpc =>
      obtain ⟨handle, hworker, rfl⟩ := Option.map_eq_some_iff.1 hs
      split
      · exact h.opening hpc hworker
      next hok =>
        have hsound := sound_iff.1 (ho.resolve_left hok)
        refine h.stopFailed (by rw [hpc]; rintro ⟨⟩) (by simp [State.held, hpc])
          (by simp [State.loose, hpc]) fun w hw q hq hu => hsound q hq ?_
        simp [State.loose, hpc, hw, hu]
    · cases hs
  | terminate ok =>
    simp only [step] at hs
    split at hs
    next hpc =>
      split at hs <;> cases hs
      · exact h.reapTerminate hpc
      next hok =>
        refine h.reapTerminateFailed hpc fun q hq he => ?_
        have := ho.resolve_left hok
        simp only [hpc, Pc.target, he, Option.all_some, Bool.not_eq_true, decide_eq_true_eq] at this
        exact alive_eq_false.1 this q hq rfl
    next handle next hpc =>
      split at hs <;> cases hs
      · exact h.terminating hpc
      next hok =>
        have hat := h.place
        rw [hpc] at hat
        refine h.stopFailed (by rw [hpc]; rintro ⟨⟩) (by simp [State.held, hpc])
          (by simp [State.loose, hpc]) fun w hw q hq hu => ?_
        have := ho.resolve_left hok
        simp only [hpc, Pc.target, hat.2 w hw q hq hu, Option.all_some, Bool.not_eq_true,
          decide_eq_true_eq] at this
        exact alive_eq_false.1 this q hq hu
    · cases hs
  | forget ok =>
    simp only [step] at hs
    split at hs
    next hpc => cases hs; exact h.reapForget hpc ok
    next next hpc =>
      obtain ⟨handle, hworker, rfl⟩ := Option.map_eq_some_iff.1 hs
      exact h.forgetting hpc hworker ok
    · cases hs
  | tick session hint =>
    simp only [step] at hs
    split at hs
    next hpc => cases hs; exact h.tick hpc _
    · cases hs
  | query answer =>
    obtain ⟨handle, hworker, hs⟩ := Option.bind_eq_some_iff.1 hs
    split at hs
    · cases hs
    next hguard =>
      have hfalse : answer ≠ some stillActive → s.alive handle.uid = false := fun hne =>
        h.query_false ho hworker hguard hne
      split at hs
      next hpc =>
        split at hs <;> cases hs
        · exact h.pass hpc rfl rfl (by rintro ⟨⟩) trivial
        next hne =>
          exact h.ended (by rw [hpc]; rintro ⟨⟩) (by rw [hpc]; rintro _ ⟨⟩) hworker (hfalse hne) .tick
      next next hpc =>
        split at hs <;> cases hs
        next heq =>
          -- The worker has ended, so it is not found running.
          have hat := h.place
          rw [hpc] at hat
          have hdead := alive_eq_false.2 (hat handle hworker)
          simp [Orderly, hworker, hdead, heq] at ho
        next hne =>
          exact h.ended (by rw [hpc]; rintro ⟨⟩) (by rw [hpc]; rintro _ ⟨⟩) hworker (hfalse hne) next
      · cases hs
  | createWorker outcome =>
    simp only [step] at hs
    split at hs
    next hpc =>
      cases hs
      exact h.pass hpc rfl rfl (by rintro ⟨⟩) trivial
    next hpc =>
      split at hs
      next hf => cases hs; exact h.createWorker hpc hf
      · cases hs
    · cases hs
  | record ok =>
    simp only [step] at hs
    split at hs
    next hpc => cases hs; exact h.record hpc ok ho
    · cases hs
  | stop =>
    simp only [step] at hs
    split at hs
    next hpc => cases hs; exact h.stopWorker hpc .exit
    · cases hs

/-- **Workers are supervised.**  In a run in order, what the service has terminated were workers it
had started; once it has reaped with no failed call, no worker of an earlier instance is alive; an
instance never has two workers alive; and a worker that has ended when the service looks is not
kept. -/
theorem workers_supervised (labels : List Label) (s : State)
    (ho : Along step Orderly State.init labels) (hrun : run step State.init labels = some s) :
    (∀ q ∈ s.terminated, q.worker ≠ none) ∧
    (s.clean = true → ∀ q ∈ s.procs, ∀ i, q.worker = some i → i = s.service) ∧
    (∀ q ∈ s.procs, ∀ q' ∈ s.procs, ∀ i, q.worker = some i → q'.worker = some i → q = q') ∧
    ∀ answer s' handle, step s (.query answer) = some s' → Orderly s (.query answer) →
      s.worker = some handle → s.alive handle.uid = false → s'.worker = none := by
  have h : Inv s := run_inv_along (fun h ho hs => h.keep ho hs) Inv.init ho hrun
  refine ⟨h.terminated, h.clean, h.one, fun answer s' handle hs ho hworker hdead => ?_⟩
  simp only [Orderly, hworker, Option.all_some, hdead, Bool.false_eq_true, if_false,
    decide_eq_true_eq] at ho
  simp only [step, hworker, Option.bind_some] at hs
  split at hs
  · cases hs
  · split at hs
    · cases hs
      rfl
    next next _ =>
      cases hs
      cases next <;> rfl
    · cases hs

/-- Up to the first worker, with process id 7. -/
def firstWorker : List Label :=
  [.start 4, .snapshot true, .reapEntry true, .endReap, .tick (some 1) none, .createWorker (some 7)]

/-- A crash leaves a worker, and the restarted service reaps it. -/
theorem workers_supervised_reaped :
    ∃ s, run step State.init (firstWorker ++ [.record true, .crash, .start 5, .snapshot true,
        .reapEntry true, .reapEntry true, .openProcess true, .terminate true, .forget true,
        .endReap]) = some s ∧
      s.terminated = [⟨0, 7, 4, imageName, some 1⟩] ∧ s.clean = true ∧ s.service = 2 ∧
      ∀ q ∈ s.procs, ∀ i, q.worker = some i → i = s.service := by
  have hmap : (run step State.init (firstWorker ++ [.record true, .crash, .start 5, .snapshot true,
      .reapEntry true, .reapEntry true, .openProcess true, .terminate true, .forget true,
      .endReap])).map (fun s => (s.terminated, s.clean, s.service)) =
      some ([⟨0, 7, 4, imageName, some 1⟩], true, 2) := by
    decide
  obtain ⟨s, hs, heq⟩ := Option.map_eq_some_iff.1 hmap
  simp only [Prod.mk.injEq] at heq
  obtain ⟨ht, hc, hn⟩ := heq
  exact ⟨s, hs, ht, hc, hn, (workers_supervised _ s (by decide) hs).2.1 hc⟩

/-- A worker ends, and its id comes again: the service terminates what it has not started, when it
stops the worker or, for a host run by hand, when it reaps; and it takes it for the worker.  A crash
before the marker is written leaves a worker that is not reaped.  A query fails: the service starts
a second worker. -/
theorem workers_confused :
    (run step State.init (firstWorker ++ [.record true, .exits 0, .create 7 1 "notepad.exe",
        .tick none none, .forget true, .openProcess true, .terminate true])).map
        (fun s => s.terminated) = some [⟨1, 7, 1, "notepad.exe", none⟩] ∧
    (run step State.init (firstWorker ++ [.record true, .exits 0, .crash,
        .create 7 1 "maho-host.exe", .start 5, .snapshot true, .reapEntry true, .reapEntry true,
        .openProcess true, .terminate true])).map (fun s => s.terminated) =
      some [⟨1, 7, 1, "maho-host.exe", none⟩] ∧
    (run step State.init (firstWorker ++ [.record true, .exits 0, .create 7 1 "notepad.exe",
        .tick (some 1) none, .query (some stillActive)])).map
        (fun s => (s.worker.map WorkerHandle.uid, s.alive 0)) = some (some 0, false) ∧
    (run step State.init (firstWorker ++ [.crash, .start 5, .snapshot true, .reapEntry true,
        .reapEntry true, .endReap])).map (fun s => (s.clean, s.service, s.procs)) =
      some (true, 2, [⟨0, 7, 4, imageName, some 1⟩]) ∧
    (run step State.init (firstWorker ++ [.record true, .tick (some 1) none, .query none,
        .tick (some 1) none, .createWorker (some 8)])).map (fun s => s.procs) =
      some [⟨1, 8, 4, imageName, some 1⟩, ⟨0, 7, 4, imageName, some 1⟩] := by
  decide

end MahoRD.WorkerSupervisor
