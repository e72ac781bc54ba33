/-
MahoRD/App/KeyFrameRequests.lean

Who asks for a key frame (`run_media_pipeline` in the Tauri shell's `lib.rs`).
The queue enters its recovery when the media thread pushes a frame after a gap
or into a full queue, or when a decode has failed; the call that enters it
answers `true`, once, and its thread then asks the session for a key frame.

The session may refuse, and the refusal is only logged: the thread goes on, and
the queue, which is in recovery already, does not answer `true` again.

What a receive or a decode comes to is the label's choice.
-/
import MahoRD.App.QueueHistory

namespace MahoRD

/-! ### What a call of the queue does to its recovery -/

namespace FrameQueue

/-- A call of the queue answers `true` where it enters the recovery, and does not enter it where
it answers `false`. -/
structure Enters (q q' : FrameQueue) (request : Bool) : Prop where
  stopped : q'.stopped = q.stopped
  entered : request = true → q.recovering = false ∧ q'.recovering = true
  kept : request = false → q'.recovering = true → q.recovering = true

theorem enters_push {q q' : FrameQueue} {frame : QueuedFrame} {request : Bool}
    (h : q.push frame = (.ok request, q')) : Enters q q' request := by
  simp only [push] at h
  split at h
  · cases h
  split at h
  · cases h
    exact ⟨rfl, by rintro ⟨⟩, fun _ hr => hr⟩
  generalize (q.lastFrameId.any (frame.1.header.frameId - · != 1) ||
    q.frames.length == frameQueueCapacity) = overflow at h
  split at h
  next hdropped =>
    cases h
    refine ⟨rfl, fun hrequest => ?_, fun hrequest _ => ?_⟩
    · simp only [Bool.and_eq_true, Bool.not_eq_true'] at hrequest
      exact ⟨hrequest.1.2, by simp [hrequest.1.1]⟩
    · cases hr : q.recovering <;> simp_all
  next hkept =>
    cases h
    refine ⟨rfl, fun hrequest => ?_, by rintro _ ⟨⟩⟩
    -- a key frame ends the recovery in the call that would have entered it
    simp_all

theorem enters_decodeFailed {q q' : FrameQueue} {request : Bool}
    (h : q.decodeFailed = (request, q')) : Enters q q' request := by
  rw [decodeFailed] at h
  split at h
  · cases h
    exact ⟨rfl, nofun, fun _ hr => hr⟩
  split at h
  · cases h
    exact ⟨rfl, nofun, fun _ hr => nomatch hr⟩
  · cases h
    exact ⟨rfl, fun hrequest => ⟨by simpa using hrequest, rfl⟩, fun hrequest _ => by
      simpa using hrequest⟩

end FrameQueue

namespace KeyFrameRequests

/-! ### The pipeline -/

/-- How `receive` ends. -/
inductive Received
  | frame (frame : AssembledFrame)
  | other
  /-- a timeout of the socket, or nothing there -/
  | timeout
  | notReady
  | failed

/-- Where the media thread is. -/
inductive Media
  /-- before the test of the stop flag -/
  | top
  | receiving
  | pushing (frame : QueuedFrame)
  /-- in the request for a key frame -/
  | requesting
  | ended
  deriving DecidableEq

/-- Where the decoder is. -/
inductive Decoder
  | idle
  /-- with a frame, before the test of the stop flag -/
  | taken (frame : QueuedFrame)
  | decoding (frame : QueuedFrame)
  /-- before `decode_failed` -/
  | failing
  /-- in the request for a key frame -/
  | requesting
  | ended
  deriving DecidableEq

/-- `asked`: the session has accepted a request since the last recovery was entered. -/
structure State where
  queue : FrameQueue
  stop : Bool
  media : Media
  decoder : Decoder
  asked : Bool

def start : State where
  queue := .new
  stop := false
  media := .top
  decoder := .idle
  asked := false

/-- The loop of the media thread ends, and the queue is closed. -/
def State.leave (s : State) : State := { s with media := .ended, queue := s.queue.stop }

inductive MediaStep
  | check
  | receive (received : Received) (now : ℕ)
  | push
  | request (accepted : Bool)

def mediaStep (s : State) : MediaStep → Option State
  | .check =>
    if s.media = .top then some (if s.stop then s.leave else { s with media := .receiving })
    else none
  | .receive received now =>
    if s.media = .receiving then
      match received with
      | .frame frame => some { s with media := .pushing (frame, now) }
      | .other | .timeout => some { s with media := .top }
      | .notReady => some s.leave
      | .failed => some (if s.stop then s.leave else { s with media := .top })
    else none
  | .push =>
    match s.media with
    | .pushing frame =>
      match s.queue.push frame with
      | (.ok true, queue) => some { s with queue, media := .requesting, asked := false }
      | (.ok false, queue) => some { s with queue, media := .top }
      | (.error _, _) => some s.leave
    | _ => none
  | .request accepted =>
    if s.media = .requesting then
      -- a refusal is only logged
      some { s with media := .top, asked := s.asked || accepted }
    else none

inductive DecodeStep
  | take
  | check
  | decode (ok : Bool)
  | fail
  | request (accepted : Bool)

def decodeStep (s : State) : DecodeStep → Option State
  | .take =>
    if s.decoder = .idle then
      match s.queue.recv with
      | none => none
      | some (.ok frame, queue) => some { s with queue, decoder := .taken frame }
      | some (.error _, queue) => some { s with queue, decoder := .ended }
    else none
  | .check =>
    match s.decoder with
    | .taken frame => some { s with decoder := if s.stop then .ended else .decoding frame }
    | _ => none
  | .decode ok =>
    match s.decoder with
    | .decoding _ => some { s with decoder := if ok then .idle else .failing }
    | _ => none
  | .fail =>
    if s.decoder = .failing then
      match s.queue.decodeFailed with
      | (true, queue) => some { s with queue, decoder := .requesting, asked := false }
      | (false, queue) => some { s with queue, decoder := .idle }
    else none
  | .request accepted =>
    if s.decoder = .requesting then
      some { s with decoder := .idle, asked := s.asked || accepted }
    else none

inductive Action
  | media (a : MediaStep)
  | decode (a : DecodeStep)
  /-- the stop flag of the pipeline is set -/
  | stop

def step (s : State) : Action → Option State
  | .media a => mediaStep s a
  | .decode a => decodeStep s a
  | .stop => some { s with stop := true }

abbrev run : State → List Action → Option State := Machine.run step

/-! ### Requests -/

def State.stopped (s : State) : Bool := s.stop || s.queue.stopped

/-- A queue in recovery is waiting for a key frame that was asked for, or is being asked for. -/
def Answered (s : State) : Prop :=
  s.queue.recovering = true → s.stopped = false →
    s.asked = true ∨ s.media = .requesting ∨ s.decoder = .requesting

/-- A request that is refused leaves no queue in recovery behind, unless another request has been
accepted or is under way. -/
def Spared (s : State) : Action → Prop
  | .media (.request false) => s.queue.recovering = true → s.stopped = false →
    s.asked = true ∨ s.decoder = .requesting
  | .decode (.request false) => s.queue.recovering = true → s.stopped = false →
    s.asked = true ∨ s.media = .requesting
  | _ => True

instance (s : State) : Decidable (Answered s) := inferInstanceAs (Decidable (_ → _))

instance (s : State) : (a : Action) → Decidable (Spared s a)
  | .media (.request false) | .decode (.request false) => inferInstanceAs (Decidable (_ → _))
  | .media .check | .media (.receive _ _) | .media .push | .media (.request true) | .stop
  | .decode .take | .decode .check | .decode (.decode _) | .decode .fail
  | .decode (.request true) => inferInstanceAs (Decidable True)

variable {s s' : State}

theorem answered_of_stopped (h : s.stopped = true) : Answered s := by
  intro _ hgoes
  rw [h] at hgoes
  cases hgoes

theorem answered_leave (s : State) : Answered s.leave :=
  answered_of_stopped (by simp [State.stopped, State.leave, FrameQueue.stop])

theorem mediaStep_iff {a : MediaStep} (h : Answered s)
    (hs : mediaStep s a = some s') : Answered s' ↔ Spared s (.media a) := by
  cases a with
  | check =>
    refine iff_of_true ?_ trivial
    simp only [mediaStep] at hs
    split at hs <;> cases hs
    split
    · exact answered_leave s
    next htop _ => simpa [Answered, State.stopped, htop] using h
  | receive received now =>
    refine iff_of_true ?_ trivial
    simp only [mediaStep] at hs
    split at hs
    next hreceiving =>
      cases received with
      | notReady =>
        cases hs
        exact answered_leave s
      | failed =>
        cases hs
        split
        · exact answered_leave s
        · simpa [Answered, State.stopped, hreceiving] using h
      | frame frame | other | timeout =>
        cases hs
        simpa [Answered, State.stopped, hreceiving] using h
    · cases hs
  | push =>
    refine iff_of_true ?_ trivial
    simp only [mediaStep] at hs
    split at hs
    next frame hpushing =>
      split at hs
      · cases hs
        exact fun _ _ => .inr (.inl rfl)
      next queue hpush =>
        cases hs
        intro hrecovering hgoes
        have henters := FrameQueue.enters_push hpush
        have hasked := h (henters.kept rfl hrecovering)
          (by simpa [State.stopped, henters.stopped] using hgoes)
        simpa [hpushing] using hasked
      · cases hs
        exact answered_leave s
    · cases hs
  | request accepted =>
    simp only [mediaStep] at hs
    split at hs <;> cases hs
    cases accepted with
    | true => exact iff_of_true (fun _ _ => .inl (by simp)) trivial
    | false => simp [Answered, Spared, State.stopped]

theorem decodeStep_iff {a : DecodeStep} (h : Answered s)
    (hs : decodeStep s a = some s') : Answered s' ↔ Spared s (.decode a) := by
  cases a with
  | take =>
    refine iff_of_true ?_ trivial
    simp only [decodeStep] at hs
    split at hs
    next hidle =>
      split at hs
      · cases hs
      next hrecv =>
        cases hs
        simpa [Answered, State.stopped, hidle, FrameQueue.recovering_recv hrecv,
          FrameQueue.stopped_recv hrecv] using h
      next hrecv =>
        cases hs
        simpa [Answered, State.stopped, hidle, FrameQueue.recovering_recv hrecv,
          FrameQueue.stopped_recv hrecv] using h
    · cases hs
  | check =>
    refine iff_of_true ?_ trivial
    simp only [decodeStep] at hs
    split at hs <;> cases hs
    next htaken =>
    cases hstop : s.stop with
    | true => exact answered_of_stopped (by simp [State.stopped])
    | false => simpa [Answered, State.stopped, htaken, hstop] using h
  | decode ok =>
    refine iff_of_true ?_ trivial
    simp only [decodeStep] at hs
    split at hs <;> cases hs
    next hdecoding => cases ok <;> simpa [Answered, State.stopped, hdecoding] using h
  | fail =>
    refine iff_of_true ?_ trivial
    simp only [decodeStep] at hs
    split at hs
    next hfailing =>
      split at hs
      · cases hs
        exact fun _ _ => .inr (.inr rfl)
      next queue hfailed =>
        cases hs
        intro hrecovering hgoes
        have henters := FrameQueue.enters_decodeFailed hfailed
        have hasked := h (henters.kept rfl hrecovering)
          (by simpa [State.stopped, henters.stopped] using hgoes)
        simpa [hfailing] using hasked
    · cases hs
  | request accepted =>
    simp only [decodeStep] at hs
    split at hs <;> cases hs
    cases accepted with
    | true => exact iff_of_true (fun _ _ => .inl (by simp)) trivial
    | false => simp [Answered, Spared, State.stopped]

theorem step_iff {a : Action} (h : Answered s) (hs : step s a = some s') :
    Answered s' ↔ Spared s a := by
  cases a with
  | media a => exact mediaStep_iff h hs
  | decode a => exact decodeStep_iff h hs
  | stop =>
    cases hs
    exact iff_of_true (answered_of_stopped (by simp [State.stopped])) trivial

/-- **A queue in recovery has been asked for, in exactly the runs in which no refusal counts.** -/
theorem requests_answered {as : List Action} {s : State} (h : run start as = some s) :
    Machine.Along step Spared start as ↔
      ∀ bs t, bs <+: as → run start bs = some t → Answered t :=
  Machine.along_iff step_iff nofun h

/-- The media thread takes a frame in. -/
def examplePush (id : UInt32) (key : Bool) : List Action :=
  [.media .check, .media (.receive (.frame ⟨⟨id, 0, 0, key, 1, 1⟩, [0], 0⟩) 0), .media .push]

/-- A frame is lost behind a key frame; the request is accepted while the decoder fails. -/
def exampleGap : List Action :=
  examplePush 1 true ++ ([.decode .take, .decode .check, .decode (.decode false)] : List Action)
    ++ examplePush 3 false ++ ([.decode .fail, .media (.request true)] : List Action)

theorem requests_answered_gap : ∃ s, run start exampleGap = some s ∧
    s.queue.recovering = true ∧ s.asked = true ∧ Answered s :=
  have hC : Machine.Along step Spared start exampleGap := by decide
  ⟨_, rfl, rfl, rfl, (requests_answered (show run start exampleGap = some _ from rfl)).mp hC
    exampleGap _ (List.prefix_refl _) rfl⟩

/-- The request after a gap is refused: the queue stays in recovery, and the next frame asks for
nothing. -/
theorem refused_request_unanswered : ∃ s,
    run start (examplePush 1 true ++ examplePush 3 false ++ [.media (.request false)]
      ++ examplePush 4 false) = some s ∧
    s.queue.recovering = true ∧ s.stopped = false ∧ s.media = .top ∧ s.asked = false ∧
    ¬ Answered s :=
  ⟨_, rfl, rfl, rfl, rfl, rfl, by decide⟩

end KeyFrameRequests
end MahoRD
