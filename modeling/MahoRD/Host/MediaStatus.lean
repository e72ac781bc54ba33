/-
MahoRD/Host/MediaStatus.lean

The terminal status of the media pipeline (`handle_connection` in
`maho-host/src/session.rs`).  Two threads share three channels:

* the session thread samples the status once at the top of every iteration, may
  restart the pipeline in it (a vanished display, a StreamOptionsRequest), and
  hands the receiver of the new pipeline over before it stops the old one;
* the UDP sender thread consumes one receiver at a time, picks up what was
  handed over, and posts a status when its receiver errors or disconnects and
  nothing was handed over, after which it waits for a replacement;
* the channel of the statuses has one slot, and posting never blocks.

The sender looks for a replacement before it posts.  Yet a status may be posted
between the sample and a restart later in the same iteration, or by a sender
that looked just before the restart.

One step is one operation on a channel or on the pipeline slot.  What the
platform, the client and the clock decide comes with the step.
-/
import MahoRD.Lib.Machine

namespace MahoRD.MediaStatus

abbrev PipelineId := ℕ

/-! ### Pipelines -/

/-- `data`: a video frame, an audio block or a cursor. -/
inductive MediaEvent
  | data
  | error
  deriving DecidableEq

/-- What a pipeline has put into its channel; `failed`: it reported an error or
ended; `ended`: its end of the channel is gone. -/
structure Pipeline where
  queue : List MediaEvent
  failed : Bool
  ended : Bool
  deriving DecidableEq

def Pipeline.start : Pipeline := ⟨[], false, false⟩

/-- `mpsc::sync_channel(16)`. -/
def Pipeline.capacity : ℕ := 16

/-! ### Threads -/

/-- Where the sender thread is: before it is spawned, picking up what was handed
over, looking for a stop signal, receiving, looking for a replacement of a
receiver that failed, posting the status, waiting for a replacement. -/
inductive SenderPc
  | absent | swap | signal | receive | failing | post | await | exited
  deriving DecidableEq

/-- The places that return `SessionError::MediaStopped`. -/
inductive Place
  | status | noFactory | noDisplay | start | handOver | imageId | keyFrame
  deriving DecidableEq

/-- How the session ends. -/
inductive Ending
  | ok
  | error
  | mediaStopped (place : Place)
  deriving DecidableEq

/-- Where the session thread is.  `failed` is what it has sampled: a status is
named after the pipeline it was posted for, which the code does not see. -/
inductive MainPc
  | top
  | read (failed : Option PipelineId)
  | check (failed : Option PipelineId)
  | recover (failed : Option PipelineId)
  | hotplugHandOver (new : PipelineId)
  | hotplugInstall (new : PipelineId)
  | hotplugStop (old : Option PipelineId)
  | housekeeping
  | dispatch
  | optionsHandOver (new : PipelineId)
  | optionsStop (new : PipelineId)
  | optionsInstall (new : PipelineId)
  | ended (ending : Ending)
  deriving DecidableEq

structure State where
  main : MainPc
  sender : SenderPc
  /-- what the sender receives from -/
  receiver : PipelineId
  /-- `media_receiver`, until the sender is spawned -/
  mediaReceiver : Option PipelineId
  /-- handed over and not yet picked up -/
  swaps : List PipelineId
  /-- the slot of `media_status_tx` -/
  status : Option PipelineId
  /-- the pipeline slot -/
  pipeline : Option PipelineId
  pipelines : List Pipeline
  restartFactory : Bool
  imageId : UInt32

namespace State

/-- After the handshake: the first pipeline runs, no sender has been spawned. -/
def init (restartFactory : Bool) : State where
  main := .top
  sender := .absent
  receiver := 0
  mediaReceiver := some 0
  swaps := []
  status := none
  pipeline := some 0
  pipelines := [Pipeline.start]
  restartFactory
  imageId := 0

def failed (s : State) (p : PipelineId) : Prop :=
  ∃ x, s.pipelines[p]? = some x ∧ x.failed = true

/-- Hand a receiver to the sender, or keep it for the one to come. -/
def handOver (s : State) (new : PipelineId) : State :=
  if s.sender = .absent then { s with mediaReceiver := some new }
  else { s with swaps := s.swaps ++ [new] }

end State

/-! ### Steps -/

/-- What the session thread finds at a step. -/
inductive Choice
  /-- nothing in particular -/
  | go
  /-- the session ends without an error here: a stop request, an abort, an
  orderly disconnect, the end of a guest's time -/
  | leave
  /-- an error of the connection, of the platform or of the peer -/
  | fail
  /-- the due topology check; `disappeared`: the selected output is gone -/
  | topology (due disappeared : Bool)
  /-- `display`: there is a display to go to; `started`: the source started, or
  failed with the error MediaStopped (`some true`) or another -/
  | restart (display : Bool) (error : Option Bool)
  /-- `peer`: the client's UDP address is known; `image`: a new image is on the
  clipboard -/
  | housekeep (peer image : Bool)
  /-- a StreamOptionsRequest that is accepted and whose source started -/
  | streamOptions
  /-- a RequestKeyFrame whose pipeline refuses -/
  | keyFrame

/-- Spawn the sender thread once there are a receiver and a peer. -/
def State.spawn (s : State) (peer : Bool) : State :=
  match s.sender, s.mediaReceiver, peer with
  | .absent, some r, true => { s with sender := .swap, receiver := r, mediaReceiver := none }
  | _, _, _ => s

def imageIdMax : UInt32 := 0xffffffff

/-- One step of the session thread. -/
def mainStep (s : State) (c : Choice) : Option State :=
  match s.main, c with
  | .top, .go => some { s with main := .read s.status, status := none }
  | .top, .leave => some { s with main := .ended .ok }
  | .top, .fail => some { s with main := .ended .error }
  | .read failed, .go => some { s with main := .check failed }
  | .read _, .leave => some { s with main := .ended .ok }
  | .read _, .fail => some { s with main := .ended .error }
  | .check failed, .topology due disappeared =>
    if failed.isSome || due then
      if failed.isSome && !disappeared then some { s with main := .ended (.mediaStopped .status) }
      else if failed.isSome || disappeared then some { s with main := .recover failed }
      else some { s with main := .housekeeping }
    else some { s with main := .housekeeping }
  | .check _, .fail => some { s with main := .ended .error }
  | .recover failed, .restart display error =>
    if s.restartFactory then
      if display then
        match error with
        | some true => some { s with main := .ended (.mediaStopped .start) }
        | some false => some { s with main := .ended .error }
        | none => some { s with
            main := .hotplugHandOver s.pipelines.length
            pipelines := s.pipelines ++ [Pipeline.start] }
      else some { s with main := .ended (.mediaStopped .noDisplay) }
    else if failed.isSome then some { s with main := .ended (.mediaStopped .noFactory) }
    else some { s with main := .top }
  | .hotplugHandOver new, .go =>
    if s.sender = .exited then some { s with main := .ended (.mediaStopped .handOver) }
    else some { s.handOver new with main := .hotplugInstall new }
  | .hotplugInstall new, .go =>
    some { s with main := .hotplugStop s.pipeline, pipeline := some new }
  | .hotplugStop _, .go => some { s with main := .housekeeping }
  | .hotplugStop _, .fail => some { s with main := .ended .error }
  | .housekeeping, .housekeep peer image =>
    if image then
      if s.imageId = imageIdMax then
        some { s.spawn peer with main := .ended (.mediaStopped .imageId) }
      else some { s.spawn peer with main := .dispatch, imageId := s.imageId + 1 }
    else some { s.spawn peer with main := .dispatch }
  | .housekeeping, .leave => some { s with main := .ended .ok }
  | .housekeeping, .fail => some { s with main := .ended .error }
  | .dispatch, .go => some { s with main := .top }
  | .dispatch, .leave => some { s with main := .ended .ok }
  | .dispatch, .fail => some { s with main := .ended .error }
  | .dispatch, .keyFrame =>
    -- a handle refuses only once its pipeline has stopped
    match s.pipeline with
    | some p =>
      if (s.pipelines[p]?.map Pipeline.failed) = some true then
        some { s with main := .ended (.mediaStopped .keyFrame) }
      else none
    | none => none
  | .dispatch, .streamOptions =>
    if s.restartFactory then
      some { s with
        main := .optionsHandOver s.pipelines.length
        pipelines := s.pipelines ++ [Pipeline.start] }
    else none
  | .optionsHandOver new, .go => some { s.handOver new with main := .optionsStop new }
  | .optionsStop new, .go => some { s with main := .optionsInstall new, pipeline := none }
  | .optionsInstall new, .go => some { s with main := .top, pipeline := some new }
  | .optionsInstall new, .fail => some { s with main := .ended .error, pipeline := some new }
  | _, _ => none

/-- Take over what was handed over first. -/
def takeSwap (s : State) : Option State :=
  match s.swaps with
  | r :: rest => some { s with receiver := r, swaps := rest, sender := .swap }
  | [] => none

/-- One step of the sender thread. -/
def senderStep (s : State) : Option State :=
  match s.sender with
  | .absent | .exited => none
  | .swap => some ((takeSwap s).getD { s with sender := .signal })
  | .signal =>
    match s.main with
    | .ended _ => some { s with sender := .exited }
    | _ => some { s with sender := .receive }
  | .receive =>
    match s.pipelines[s.receiver]? with
    | none => none
    | some x =>
      match x.queue with
      | .data :: rest => some { s with
          sender := .swap, pipelines := s.pipelines.set s.receiver { x with queue := rest } }
      | .error :: rest => some { s with
          sender := .failing, pipelines := s.pipelines.set s.receiver { x with queue := rest } }
      | [] => some { s with sender := if x.ended then .failing else .swap }
  | .failing => some ((takeSwap s).getD { s with sender := .post })
  | .post => some { s with sender := .await, status := some (s.status.getD s.receiver) }
  | .await =>
    match takeSwap s, s.main with
    | some s', _ => some s'
    | none, .ended _ => some { s with sender := .exited }
    | none, _ => none

/-- A pipeline puts an event into its channel. -/
def emitStep (s : State) (p : PipelineId) (e : MediaEvent) : Option State :=
  match s.pipelines[p]? with
  | some x =>
    if x.ended = false ∧ x.queue.length < Pipeline.capacity then
      some { s with
        pipelines := s.pipelines.set p ⟨x.queue ++ [e], x.failed || e = .error, x.ended⟩ }
    else none
  | none => none

/-- A pipeline ends, stopped or of its own accord. -/
def finishStep (s : State) (p : PipelineId) : Option State :=
  match s.pipelines[p]? with
  | some x => some { s with pipelines := s.pipelines.set p ⟨x.queue, true, true⟩ }
  | none => none

inductive Label
  | main (c : Choice)
  | sender
  | emit (p : PipelineId) (e : MediaEvent)
  | finish (p : PipelineId)

def step (s : State) : Label → Option State
  | .main c => mainStep s c
  | .sender => senderStep s
  | .emit p e => emitStep s p e
  | .finish p => finishStep s p

/-! ### The condition -/

/-- The session thread is about to hand a receiver over. -/
def State.handsOver (s : State) : Bool :=
  match s.main with
  | .hotplugHandOver _ | .optionsHandOver _ => true
  | _ => false

/-- A receiver is handed over only while no status is in the slot or about to be
posted, and the image ids do not run out. -/
def Unposted (s : State) : Label → Prop
  | .main .go => s.handsOver = true → s.status = none ∧ s.sender ≠ .post
  | .main (.housekeep _ true) => s.imageId ≠ imageIdMax
  | _ => True

instance (s : State) : ∀ l, Decidable (Unposted s l)
  | .main .go =>
    inferInstanceAs (Decidable (s.handsOver = true → s.status = none ∧ s.sender ≠ .post))
  | .main (.housekeep _ true) => inferInstanceAs (Decidable (s.imageId ≠ imageIdMax))
  | .main (.housekeep _ false) | .main .leave | .main .fail | .main (.topology _ _)
  | .main (.restart _ _) | .main .streamOptions | .main .keyFrame | .sender | .emit _ _
  | .finish _ => isTrue trivial

/-! ### The invariant -/

/-- The receiver handed over last: what the sender will come to receive from. -/
def State.handed (s : State) : Option PipelineId :=
  s.swaps.getLast?.or (if s.sender = .absent then s.mediaReceiver else some s.receiver)

/-- The session may end like this: MediaStopped is for an installed pipeline that
has failed, or for want of a replacement. -/
def Justified (s : State) : Ending → Prop
  | .mediaStopped .noFactory | .mediaStopped .noDisplay | .mediaStopped .start => True
  | .mediaStopped _ => ∃ p, s.pipeline = some p ∧ s.failed p
  | _ => True

/-- Outside a restart the installed pipeline is the one handed over last, and
what was sampled is its failure. -/
def MainInv (s : State) : Prop :=
  match s.main with
  | .read failed | .check failed | .recover failed =>
    s.pipeline = s.handed ∧ ∀ q, failed = some q → s.pipeline = some q ∧ s.failed q
  | .hotplugInstall new | .optionsStop new | .optionsInstall new => s.handed = some new
  | .ended ending => Justified s ending
  | _ => s.pipeline = s.handed

structure Inv (s : State) : Prop where
  pipes : ∀ (p : PipelineId) (x : Pipeline), s.pipelines[p]? = some x → MediaEvent.error ∈ x.queue ∨ x.ended = true →
    x.failed = true
  status : ∀ q, s.status = some q →
    s.handed = some q ∧ s.failed q ∧ (s.sender = .await ∨ s.sender = .exited) ∧ s.swaps = []
  failing : s.sender = .failing ∨ s.sender = .post → s.failed s.receiver
  post : s.sender = .post ∨ s.sender = .absent → s.swaps = []
  exited : s.sender = .exited → ∃ ending, s.main = .ended ending
  main : MainInv s

theorem inv_init (restartFactory : Bool) : Inv (State.init restartFactory) where
  pipes p x hx := by
    rcases p with - | p
    · cases hx
      simp [Pipeline.start]
    · cases hx
  status q hq := by cases hq
  failing h := by rcases h with h | h <;> cases h
  post _ := rfl
  exited h := by cases h
  main := rfl

variable {s s' : State} {m : MainPc} {p : PipelineId} {c : Choice}

theorem MainInv.congr (h : MainInv s) (hmain : s'.main = s.main)
    (hpipeline : s'.pipeline = s.pipeline) (hhanded : s'.handed = s.handed)
    (hfailed : ∀ p, s.failed p → s'.failed p) : MainInv s' := by
  have hj : ∀ ending, Justified s ending → Justified s' ending := by
    intro ending hend
    rcases ending with - | - | place
    · trivial
    · trivial
    · cases place
      case noFactory | noDisplay | start => trivial
      all_goals
        obtain ⟨p, hp, hf⟩ := hend
        exact ⟨p, hpipeline.trans hp, hfailed p hf⟩
  simp only [MainInv, hmain, hpipeline, hhanded] at h ⊢
  rcases hm : s.main with - | failed | failed | failed | new | new | old | - | - | new | new |
    new | ending
  all_goals simp only [hm] at h ⊢
  case read | check | recover =>
    exact ⟨h.1, fun q hq => ⟨(h.2 q hq).1, hfailed q (h.2 q hq).2⟩⟩
  case ended => exact hj ending h
  all_goals exact h

theorem Inv.install {pipeline : Option PipelineId} (hs : Inv s)
    (hne : ∀ e, s.main ≠ .ended e) (hm : MainInv { s with main := m, pipeline }) :
    Inv { s with main := m, pipeline } where
  pipes := hs.pipes
  status := hs.status
  failing := hs.failing
  post := hs.post
  exited h := by
    obtain ⟨e, he⟩ := hs.exited h
    exact absurd he (hne e)
  main := hm

theorem Inv.setMain (hs : Inv s) (hne : ∀ e, s.main ≠ .ended e)
    (hm : MainInv { s with main := m }) : Inv { s with main := m } :=
  hs.install hne hm

/-! ### Pipelines -/

/-- A pipeline changes: it stays failed, and it has failed if it reports an error
or has ended. -/
theorem Inv.setPipeline {x y : Pipeline} (hs : Inv s)
    (hx : s.pipelines[p]? = some x) (hmono : x.failed = true → y.failed = true)
    (hy : MediaEvent.error ∈ y.queue ∨ y.ended = true → y.failed = true) :
    Inv { s with pipelines := s.pipelines.set p y } ∧
      ∀ q, s.failed q → State.failed { s with pipelines := s.pipelines.set p y } q := by
  have hget : ∀ q, (s.pipelines.set p y)[q]? = if p = q then some y else s.pipelines[q]? := by
    intro q
    rw [List.getElem?_set]
    split
    next heq =>
      subst heq
      have hlt : p < s.pipelines.length := (List.getElem?_eq_some_iff.mp hx).1
      rw [if_pos hlt]
    · rfl
  have hgrow : ∀ q, s.failed q →
      State.failed { s with pipelines := s.pipelines.set p y } q := by
    rintro q ⟨z, hz, hf⟩
    show ∃ z, (s.pipelines.set p y)[q]? = some z ∧ z.failed = true
    rw [hget]
    split
    next heq =>
      subst heq
      rw [hx] at hz
      cases hz
      exact ⟨y, rfl, hmono hf⟩
    · exact ⟨z, hz, hf⟩
  refine ⟨⟨?_, ?_, ?_, hs.post, hs.exited, hs.main.congr rfl rfl rfl hgrow⟩, hgrow⟩
  · intro q z hz
    rw [hget] at hz
    split at hz
    · cases hz
      exact hy
    · exact hs.pipes q z hz
  · intro q hq
    obtain ⟨hhanded, hf, hrest⟩ := hs.status q hq
    exact ⟨hhanded, hgrow q hf, hrest⟩
  · intro h
    exact hgrow _ (hs.failing h)

theorem inv_emitStep {e : MediaEvent} (hs : Inv s)
    (h : emitStep s p e = some s') : Inv s' := by
  simp only [emitStep] at h
  split at h
  next x hx =>
    split at h
    next hopen =>
      refine Option.some.inj h ▸ (hs.setPipeline hx (fun hf => ?_) fun hy => ?_).1
      · simp [hf]
      · rcases hy with hmem | hend
        · rcases List.mem_append.mp hmem with hmem | hmem
          · simp [hs.pipes p x hx (Or.inl hmem)]
          · simp [(List.mem_singleton.mp hmem).symm]
        · simp [hopen.1] at hend
    · cases h
  · cases h

theorem inv_finishStep (hs : Inv s)
    (h : finishStep s p = some s') : Inv s' := by
  simp only [finishStep] at h
  split at h
  next x hx => exact Option.some.inj h ▸ (hs.setPipeline hx (fun _ => rfl) fun _ => rfl).1
  · cases h

/-! ### The sender thread -/

theorem Inv.status_eq_none (hs : Inv s)
    (h : (s.sender ≠ .await ∧ s.sender ≠ .exited) ∨ s.swaps ≠ []) : s.status = none := by
  rcases hst : s.status with - | q
  · rfl
  · obtain ⟨-, -, ha, hsw⟩ := hs.status q hst
    rcases h with ⟨hawait, hexited⟩ | h
    · rcases ha with ha | ha
      · exact absurd ha hawait
      · exact absurd ha hexited
    · exact absurd hsw h

theorem Inv.setSender {p : SenderPc} (hs : Inv s) (hold : s.sender ≠ .absent)
    (hnew : p ≠ .absent) (hstatus : s.status ≠ none → p = .await ∨ p = .exited)
    (hfailing : p = .failing ∨ p = .post → s.failed s.receiver)
    (hpost : p = .post → s.swaps = [])
    (hexited : p = .exited → ∃ ending, s.main = .ended ending) :
    Inv { s with sender := p } := by
  have hhanded : State.handed { s with sender := p } = s.handed := by
    simp [State.handed, hold, hnew]
  refine ⟨hs.pipes, ?_, hfailing, ?_, hexited, hs.main.congr rfl rfl hhanded fun _ h => h⟩
  · intro q hq
    obtain ⟨hh, hf, -, hsw⟩ := hs.status q hq
    exact ⟨hhanded.trans hh, hf, hstatus (by rw [show s.status = some q from hq]; simp), hsw⟩
  · intro h
    rcases h with h | h
    · exact hpost h
    · exact absurd h hnew

theorem inv_takeSwap (hs : Inv s) (h : takeSwap s = some s') : Inv s' := by
  simp only [takeSwap] at h
  split at h
  next r rest hsw =>
    have hnone : s.status = none := hs.status_eq_none (Or.inr (by simp [hsw]))
    have hold : s.sender ≠ .absent := by
      intro ha
      have hnil := hs.post (Or.inr ha)
      rw [hsw] at hnil
      cases hnil
    have hhanded : State.handed { s with receiver := r, swaps := rest, sender := .swap }
        = s.handed := by
      rcases rest with - | ⟨r', rest⟩
      · simp [State.handed, hsw]
      · rw [State.handed, State.handed, hsw, List.getLast?_cons_cons]
        rcases hlast : (r' :: rest).getLast? with - | last
        · simp at hlast
        · rfl
    cases h
    refine ⟨hs.pipes, fun q hq => ?_, fun h => ?_, fun h => ?_, fun h => ?_,
      hs.main.congr rfl rfl hhanded fun _ h => h⟩
    · rw [show s.status = some q from hq] at hnone
      cases hnone
    · rcases h with h | h <;> cases h
    · rcases h with h | h <;> cases h
    · cases h
  · cases h

theorem takeSwap_eq_none : takeSwap s = none ↔ s.swaps = [] := by
  rcases hsw : s.swaps with - | ⟨r, rest⟩ <;> simp [takeSwap, hsw]

theorem inv_receive (hs : Inv s) (hpc : s.sender = .receive)
    (h : senderStep s = some s') : Inv s' := by
  simp only [senderStep, hpc] at h
  have hnone : s.status = none := hs.status_eq_none (Or.inl (by simp [hpc]))
  have hold : s.sender ≠ .absent := by simp [hpc]
  split at h
  · cases h
  next x hx =>
    split at h
    next rest hq =>
      -- an event of the media: back to the top
      have hs' := hs.setPipeline (y := { x with queue := rest }) hx (fun hf => hf) fun hy =>
        hs.pipes s.receiver x hx (hy.imp (fun hm => by simp [hq, hm]) fun he => he)
      exact Option.some.inj h ▸ hs'.1.setSender (p := .swap) hold (by simp)
        (fun hne => absurd hnone hne) (by simp) (by simp) (by simp)
    next rest hq =>
      -- an error: the receiver has failed
      have hf : x.failed = true := hs.pipes s.receiver x hx (Or.inl (by simp [hq]))
      have hs' := hs.setPipeline (y := { x with queue := rest }) hx (fun hf => hf) fun _ => hf
      exact Option.some.inj h ▸ hs'.1.setSender (p := .failing) hold (by simp)
        (fun hne => absurd hnone hne) (fun _ => hs'.2 _ ⟨x, hx, hf⟩) (by simp) (by simp)
    · -- nothing to receive: a timeout, or the end of the pipeline
      have hf : x.ended = true → s.failed s.receiver := fun he =>
        ⟨x, hx, hs.pipes s.receiver x hx (Or.inr he)⟩
      refine Option.some.inj h ▸ hs.setSender hold ?_ (fun hne => absurd hnone hne) ?_ ?_ ?_
      all_goals cases hend : x.ended
      all_goals simp [hf, hend]

theorem inv_post (hs : Inv s) (hpc : s.sender = .post) :
    Inv { s with sender := .await, status := some (s.status.getD s.receiver) } := by
  have hnone : s.status = none := hs.status_eq_none (Or.inl (by simp [hpc]))
  have hsw : s.swaps = [] := hs.post (Or.inl hpc)
  have hhanded : s.handed = some s.receiver := by simp [State.handed, hsw, hpc]
  have hhanded' : State.handed { s with
      sender := .await, status := some (s.status.getD s.receiver) } = s.handed := by
    simp [State.handed, hpc]
  refine ⟨hs.pipes, fun q hq => ?_, fun h => ?_, fun h => ?_, fun h => ?_,
    hs.main.congr rfl rfl hhanded' fun _ h => h⟩
  · rw [hnone] at hq
    cases hq
    exact ⟨hhanded'.trans hhanded, hs.failing (Or.inr hpc), Or.inl rfl, hsw⟩
  · rcases h with h | h <;> cases h
  · rcases h with h | h <;> cases h
  · cases h

theorem inv_senderStep (hs : Inv s) (h : senderStep s = some s') : Inv s' := by
  rcases hpc : s.sender with - | - | - | - | - | - | - | -
  case absent | exited => simp [senderStep, hpc] at h
  case swap =>
    simp only [senderStep, hpc] at h
    have hnone : s.status = none := hs.status_eq_none (Or.inl (by simp [hpc]))
    rcases htake : takeSwap s with - | t
    · rw [htake] at h
      exact Option.some.inj h ▸ hs.setSender (by simp [hpc]) (by simp)
        (fun hne => absurd hnone hne) (by simp) (by simp) (by simp)
    · rw [htake] at h
      exact Option.some.inj h ▸ inv_takeSwap hs htake
  case signal =>
    simp only [senderStep, hpc] at h
    have hnone : s.status = none := hs.status_eq_none (Or.inl (by simp [hpc]))
    split at h
    next ending hend =>
      exact Option.some.inj h ▸ hs.setSender (by simp [hpc]) (by simp)
        (fun hne => absurd hnone hne) (by simp) (by simp) fun _ => ⟨ending, hend⟩
    · exact Option.some.inj h ▸ hs.setSender (by simp [hpc]) (by simp)
        (fun hne => absurd hnone hne) (by simp) (by simp) (by simp)
  case receive => exact inv_receive hs hpc h
  case failing =>
    simp only [senderStep, hpc] at h
    have hnone : s.status = none := hs.status_eq_none (Or.inl (by simp [hpc]))
    rcases htake : takeSwap s with - | t
    · rw [htake] at h
      exact Option.some.inj h ▸ hs.setSender (by simp [hpc]) (by simp)
        (fun hne => absurd hnone hne) (fun _ => hs.failing (Or.inl hpc))
        (fun _ => takeSwap_eq_none.mp htake) (by simp)
    · rw [htake] at h
      exact Option.some.inj h ▸ inv_takeSwap hs htake
  case post =>
    simp only [senderStep, hpc] at h
    exact Option.some.inj h ▸ inv_post hs hpc
  case await =>
    simp only [senderStep, hpc] at h
    split at h
    next t htake => exact Option.some.inj h ▸ inv_takeSwap hs htake
    next ending _ hend =>
      exact Option.some.inj h ▸ hs.setSender (by simp [hpc]) (by simp)
        (fun _ => Or.inr rfl) (by simp) (by simp) fun _ => ⟨ending, hend⟩
    · cases h

/-! ### The session thread -/

theorem Inv.startPipeline (hs : Inv s) :
    Inv { s with pipelines := s.pipelines ++ [Pipeline.start] } := by
  have hgrow : ∀ p, s.failed p →
      State.failed { s with pipelines := s.pipelines ++ [Pipeline.start] } p := by
    rintro p ⟨x, hx, hf⟩
    have hlt : p < s.pipelines.length := (List.getElem?_eq_some_iff.mp hx).1
    exact ⟨x, (List.getElem?_append_left hlt).trans hx, hf⟩
  refine ⟨fun p x hx hy => ?_, fun q hq => ?_, fun h => hgrow _ (hs.failing h), hs.post, hs.exited,
    hs.main.congr rfl rfl rfl hgrow⟩
  · rcases Nat.lt_or_ge p s.pipelines.length with hlt | hge
    · exact hs.pipes p x ((List.getElem?_append_left hlt).symm.trans hx) hy
    · have hnew : x = Pipeline.start := by
        have hmem := List.mem_of_getElem? ((List.getElem?_append_right hge).symm.trans hx)
        exact List.mem_singleton.mp hmem
      subst hnew
      simp [Pipeline.start] at hy
  · obtain ⟨hhanded, hf, hrest⟩ := hs.status q hq
    exact ⟨hhanded, hgrow q hf, hrest⟩

theorem Inv.handOver {new : PipelineId} (hs : Inv s)
    (hne : ∀ e, s.main ≠ .ended e) (hstatus : s.status = none) (hpost : s.sender ≠ .post)
    (hm : m = .hotplugInstall new ∨ m = .optionsStop new) :
    Inv { s.handOver new with main := m } := by
  have hexited : s.sender ≠ .exited := fun h =>
    (hs.exited h).elim fun e he => hne e he
  by_cases habsent : s.sender = .absent
  · have hsw : s.swaps = [] := hs.post (Or.inr habsent)
    rw [State.handOver, if_pos habsent]
    refine ⟨hs.pipes, fun q hq => ?_, hs.failing, hs.post, fun h => absurd h hexited, ?_⟩
    · rw [show s.status = some q from hq] at hstatus
      cases hstatus
    · rcases hm with rfl | rfl
      all_goals
        show State.handed _ = some new
        simp [State.handed, hsw, habsent]
  · rw [State.handOver, if_neg habsent]
    refine ⟨hs.pipes, fun q hq => ?_, hs.failing, fun h => ?_, fun h => absurd h hexited, ?_⟩
    · rw [show s.status = some q from hq] at hstatus
      cases hstatus
    · rcases h with h | h
      · exact absurd h hpost
      · exact absurd h habsent
    · rcases hm with rfl | rfl
      all_goals
        show State.handed _ = some new
        simp [State.handed]

theorem Inv.spawn (hs : Inv s) (peer : Bool) :
    Inv (s.spawn peer) ∧ (s.spawn peer).main = s.main ∧ (s.spawn peer).pipeline = s.pipeline ∧
      (s.spawn peer).handed = s.handed ∧ (s.spawn peer).imageId = s.imageId := by
  simp only [State.spawn]
  split
  next _ _ _ r habsent hr =>
    have hsw : s.swaps = [] := hs.post (Or.inr habsent)
    have hnone : s.status = none := hs.status_eq_none (Or.inl (by simp [habsent]))
    have hhanded : State.handed { s with sender := .swap, receiver := r, mediaReceiver := none }
        = s.handed := by
      simp [State.handed, hsw, habsent, hr]
    refine ⟨⟨hs.pipes, fun q hq => ?_, fun h => ?_, fun h => ?_, fun h => ?_,
      hs.main.congr rfl rfl hhanded fun _ h => h⟩, rfl, rfl, hhanded, rfl⟩
    · rw [show s.status = some q from hq] at hnone
      cases hnone
    · rcases h with h | h <;> cases h
    · rcases h with h | h <;> cases h
    · cases h
  · exact ⟨hs, rfl, rfl, rfl, rfl⟩

theorem inv_sample (hs : Inv s) (hpc : s.main = .top) :
    Inv { s with main := .read s.status, status := none } := by
  have hm := hs.main
  simp only [MainInv, hpc] at hm
  refine ⟨hs.pipes, fun q hq => ?_, hs.failing, hs.post, fun h => ?_, hm, fun q hq => ?_⟩
  · cases hq
  · obtain ⟨e, he⟩ := hs.exited h
    rw [hpc] at he
    cases he
  · obtain ⟨hhanded, hf, -⟩ := hs.status q hq
    exact ⟨hm.trans hhanded, hf⟩

theorem inv_check {failed : Option PipelineId} (hs : Inv s)
    (hpc : s.main = .check failed) (h : mainStep s c = some s') : Inv s' := by
  have hne : ∀ e, s.main ≠ .ended e := by simp [hpc]
  have hm := hs.main
  simp only [MainInv, hpc] at hm
  cases c
  case topology due disappeared =>
    simp only [mainStep, hpc] at h
    split at h
    · split at h
      next hfailed =>
        -- the status ends the session: it is of the installed pipeline
        rw [Bool.and_eq_true, Option.isSome_iff_exists] at hfailed
        obtain ⟨⟨q, hq⟩, -⟩ := hfailed
        exact Option.some.inj h ▸ hs.setMain hne ⟨q, hm.2 q hq⟩
      · split at h
        · exact Option.some.inj h ▸ hs.setMain hne hm
        · exact Option.some.inj h ▸ hs.setMain hne hm.1
    · exact Option.some.inj h ▸ hs.setMain hne hm.1
  case fail =>
    simp only [mainStep, hpc] at h
    exact Option.some.inj h ▸ hs.setMain hne trivial
  all_goals simp [mainStep, hpc] at h

theorem inv_recover {failed : Option PipelineId} (hs : Inv s)
    (hpc : s.main = .recover failed) (h : mainStep s c = some s') : Inv s' := by
  have hne : ∀ e, s.main ≠ .ended e := by simp [hpc]
  have hm := hs.main
  simp only [MainInv, hpc] at hm
  cases c
  case restart display error =>
    simp only [mainStep, hpc] at h
    split at h
    · split at h
      · split at h
        · exact Option.some.inj h ▸ hs.setMain hne trivial
        · exact Option.some.inj h ▸ hs.setMain hne trivial
        · exact Option.some.inj h ▸ hs.startPipeline.setMain hne hm.1
      · exact Option.some.inj h ▸ hs.setMain hne trivial
    · split at h
      · exact Option.some.inj h ▸ hs.setMain hne trivial
      · exact Option.some.inj h ▸ hs.setMain hne hm.1
  all_goals simp [mainStep, hpc] at h

theorem inv_housekeeping (hs : Inv s) (hpc : s.main = .housekeeping)
    (hC : Unposted s (.main c)) (h : mainStep s c = some s') : Inv s' := by
  have hne : ∀ e, s.main ≠ .ended e := by simp [hpc]
  have hm := hs.main
  simp only [MainInv, hpc] at hm
  cases c
  case housekeep peer image =>
    obtain ⟨hs₁, hmain, hpipeline, hhanded, himage⟩ := hs.spawn peer
    have hne₁ : ∀ e, (s.spawn peer).main ≠ .ended e := by simp [hmain, hpc]
    have hm₁ : (s.spawn peer).pipeline = (s.spawn peer).handed := by rw [hpipeline, hhanded, hm]
    have hdispatch : Inv { s.spawn peer with main := .dispatch } := hs₁.setMain hne₁ hm₁
    simp only [mainStep, hpc] at h
    split at h
    next hnew =>
      subst hnew
      rw [if_neg hC] at h
      exact Option.some.inj h ▸ ⟨hdispatch.pipes, hdispatch.status, hdispatch.failing,
        hdispatch.post, hdispatch.exited, hdispatch.main⟩
    · exact Option.some.inj h ▸ hdispatch
  case leave | fail =>
    simp only [mainStep, hpc] at h
    exact Option.some.inj h ▸ hs.setMain hne trivial
  all_goals simp [mainStep, hpc] at h

theorem inv_dispatch (hs : Inv s) (hpc : s.main = .dispatch)
    (h : mainStep s c = some s') : Inv s' := by
  have hne : ∀ e, s.main ≠ .ended e := by simp [hpc]
  have hm := hs.main
  simp only [MainInv, hpc] at hm
  cases c
  case go =>
    simp only [mainStep, hpc] at h
    exact Option.some.inj h ▸ hs.setMain hne hm
  case leave | fail =>
    simp only [mainStep, hpc] at h
    exact Option.some.inj h ▸ hs.setMain hne trivial
  case keyFrame =>
    simp only [mainStep, hpc] at h
    split at h
    next p hp =>
      split at h
      next hrefuses =>
        obtain ⟨x, hx, hf⟩ := Option.map_eq_some_iff.mp hrefuses
        exact Option.some.inj h ▸ hs.setMain hne ⟨p, hp, x, hx, hf⟩
      · cases h
    · cases h
  case streamOptions =>
    simp only [mainStep, hpc] at h
    split at h
    · exact Option.some.inj h ▸ hs.startPipeline.setMain hne hm
    · cases h
  all_goals simp [mainStep, hpc] at h

theorem inv_mainStep (hs : Inv s) (hC : Unposted s (.main c))
    (h : mainStep s c = some s') : Inv s' := by
  have hm := hs.main
  rcases hpc : s.main with - | failed | failed | failed | new | new | old | - | - | new | new |
    new | ending
  case check => exact inv_check hs hpc h
  case recover => exact inv_recover hs hpc h
  case housekeeping => exact inv_housekeeping hs hpc hC h
  case dispatch => exact inv_dispatch hs hpc h
  case ended => cases c <;> simp [mainStep, hpc] at h
  all_goals
    have hne : ∀ e, s.main ≠ .ended e := by simp [hpc]
    simp only [MainInv, hpc] at hm
  case top =>
    cases c
    case go =>
      simp only [mainStep, hpc] at h
      exact Option.some.inj h ▸ inv_sample hs hpc
    case leave | fail =>
      simp only [mainStep, hpc] at h
      exact Option.some.inj h ▸ hs.setMain hne trivial
    all_goals simp [mainStep, hpc] at h
  case read =>
    cases c
    case go =>
      simp only [mainStep, hpc] at h
      exact Option.some.inj h ▸ hs.setMain hne hm
    case leave | fail =>
      simp only [mainStep, hpc] at h
      exact Option.some.inj h ▸ hs.setMain hne trivial
    all_goals simp [mainStep, hpc] at h
  case hotplugHandOver =>
    cases c
    case go =>
      obtain ⟨hstatus, hpost⟩ := hC (by simp [State.handsOver, hpc])
      simp only [mainStep, hpc] at h
      split at h
      next hexited =>
        obtain ⟨e, he⟩ := hs.exited hexited
        exact absurd he (hne e)
      · exact Option.some.inj h ▸ hs.handOver hne hstatus hpost (Or.inl rfl)
    all_goals simp [mainStep, hpc] at h
  case optionsHandOver =>
    cases c
    case go =>
      obtain ⟨hstatus, hpost⟩ := hC (by simp [State.handsOver, hpc])
      simp only [mainStep, hpc] at h
      exact Option.some.inj h ▸ hs.handOver hne hstatus hpost (Or.inr rfl)
    all_goals simp [mainStep, hpc] at h
  case hotplugInstall =>
    cases c
    case go =>
      simp only [mainStep, hpc] at h
      exact Option.some.inj h ▸ hs.install hne hm.symm
    all_goals simp [mainStep, hpc] at h
  case hotplugStop =>
    cases c
    case go =>
      simp only [mainStep, hpc] at h
      exact Option.some.inj h ▸ hs.setMain hne hm
    case fail =>
      simp only [mainStep, hpc] at h
      exact Option.some.inj h ▸ hs.setMain hne trivial
    all_goals simp [mainStep, hpc] at h
  case optionsStop =>
    cases c
    case go =>
      simp only [mainStep, hpc] at h
      exact Option.some.inj h ▸ hs.install hne hm
    all_goals simp [mainStep, hpc] at h
  case optionsInstall =>
    cases c
    case go =>
      simp only [mainStep, hpc] at h
      exact Option.some.inj h ▸ hs.install hne hm.symm
    case fail =>
      simp only [mainStep, hpc] at h
      exact Option.some.inj h ▸ hs.install hne trivial
    all_goals simp [mainStep, hpc] at h

theorem inv_step {l : Label} (hs : Inv s) (hC : Unposted s l)
    (h : step s l = some s') : Inv s' := by
  cases l with
  | main c => exact inv_mainStep hs hC h
  | sender => exact inv_senderStep hs h
  | emit p e => exact inv_emitStep hs h
  | finish p => exact inv_finishStep hs h

/-! ### The result -/

/-- **MediaStopped is for the installed pipeline.**  In every run in which no
receiver is handed over while a status is in the slot or about to be posted, and
the image ids do not run out: the session ends with MediaStopped only if the
pipeline installed then has failed or no replacement could be started, and a
status that is sampled is always of the pipeline installed then. -/
theorem media_stopped_installed {restartFactory : Bool} {labels : List Label} {s : State}
    (hrun : Machine.run step (State.init restartFactory) labels = some s)
    (hC : Machine.Along step Unposted (State.init restartFactory) labels) :
    (∀ place, s.main = .ended (.mediaStopped place) →
      place = .noFactory ∨ place = .noDisplay ∨ place = .start ∨
        ∃ p, s.pipeline = some p ∧ s.failed p) ∧
    ∀ q, s.main = .read (some q) → s.pipeline = some q ∧ s.failed q := by
  have hs : Inv s := Machine.run_inv_along inv_step (inv_init restartFactory) hC hrun
  have hm := hs.main
  refine ⟨fun place hend => ?_, fun q hread => ?_⟩
  · simp only [MainInv, hend] at hm
    cases place
    case noFactory => exact Or.inl rfl
    case noDisplay => exact Or.inr (Or.inl rfl)
    case start => exact Or.inr (Or.inr (Or.inl rfl))
    all_goals exact Or.inr (Or.inr (Or.inr hm))
  · simp only [MainInv, hread] at hm
    exact hm.2 q rfl

/-- One uneventful iteration of the session thread up to its dispatch. -/
def quiet : List Label :=
  [.main .go, .main .go, .main (.topology false false), .main (.housekeep true false)]

/-- The first pipeline fails, and its status is sampled. -/
theorem media_stopped_installed_failed :
    ∃ s, Machine.run step (State.init true)
        (quiet ++ [.main .go, .finish 0, .sender, .sender, .sender, .sender, .sender,
          .main .go, .main .go, .main (.topology false false)]) = some s ∧
      s.main = .ended (.mediaStopped .status) ∧
        ((∀ place, s.main = .ended (.mediaStopped place) →
          place = .noFactory ∨ place = .noDisplay ∨ place = .start ∨
            ∃ p, s.pipeline = some p ∧ s.failed p) ∧
        ∀ q, s.main = .read (some q) → s.pipeline = some q ∧ s.failed q) := by
  let labels : List Label := quiet ++ ([.main .go, .finish 0, .sender, .sender, .sender, .sender,
    .sender, .main .go, .main .go, .main (.topology false false)] : List Label)
  have hend : (Machine.run step (State.init true) labels).map State.main
      = some (.ended (.mediaStopped .status)) := by decide
  have hC : Machine.Along step Unposted (State.init true) labels := by decide
  obtain ⟨s, hrun, hs⟩ := Option.map_eq_some_iff.mp hend
  exact ⟨s, hrun, hs, media_stopped_installed hrun hC⟩

/-- **The failure of a replaced pipeline ends the session.**  The first pipeline
fails after the sample of an iteration, its status is posted, and the
StreamOptionsRequest dispatched in the same iteration restarts the pipeline; the
next iteration samples the status and returns MediaStopped, with the second
pipeline installed and running. -/
theorem replaced_failure_ends :
    ∃ s, Machine.run step (State.init true)
        (quiet ++ [.main .go, .main .go, .main .go, .finish 0, .sender, .sender, .sender, .sender,
          .sender, .main (.topology false false), .main (.housekeep true false),
          .main .streamOptions, .main .go, .main .go, .main .go,
          .main .go, .main .go, .main (.topology false false)]) = some s ∧
      s.main = .ended (.mediaStopped .status) ∧ s.pipeline = some 1 ∧ ¬ s.failed 1 := by
  let labels : List Label := quiet ++ ([.main .go, .main .go, .main .go, .finish 0, .sender,
    .sender, .sender, .sender, .sender, .main (.topology false false),
    .main (.housekeep true false), .main .streamOptions, .main .go, .main .go, .main .go,
    .main .go, .main .go, .main (.topology false false)] : List Label)
  have hend : (Machine.run step (State.init true) labels).map
      (fun s => (s.main, s.pipeline, s.pipelines[1]?))
        = some (.ended (.mediaStopped .status), some 1, some Pipeline.start) := by decide
  obtain ⟨s, hrun, hs⟩ := Option.map_eq_some_iff.mp hend
  simp only [Prod.mk.injEq] at hs
  obtain ⟨hmain, hpipeline, hnew⟩ := hs
  refine ⟨s, hrun, hmain, hpipeline, ?_⟩
  rintro ⟨x, hx, hf⟩
  rw [hnew] at hx
  cases hx
  cases hf

end MahoRD.MediaStatus
