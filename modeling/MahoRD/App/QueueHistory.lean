/-
MahoRD/App/QueueHistory.lean

The frame queue over time: what it hands out, and when it asks for a key frame,
under any sequence of its operations.  Each of them holds the lock from begin to
end, so the sequences are all there is to the interleavings of the producer and
the decoder; `recv` alone waits, and is not enabled meanwhile.
-/
import MahoRD.App.FrameQueue
import MahoRD.Lib.Machine

namespace MahoRD.FrameQueue

/-- `recv`, which waits while the queue is empty and not stopped. -/
def recv (q : FrameQueue) : Option (Except Unit QueuedFrame × FrameQueue) :=
  if q.stopped then some (.error (), q)
  else
    match q.frames with
    | [] => none
    | frame :: rest => some (.ok frame, { q with frames := rest })

/-- The operations. -/
inductive Op
  | push (frame : QueuedFrame)
  | recvTimeout
  | recv
  | decodeFailed
  | stop

/-- One operation as its caller saw it: whether the queue was in recovery
before, whether a key frame was requested, whether it was in recovery after. -/
structure Report where
  before : Bool
  requested : Bool
  after : Bool

/-- The queue with the frames given to it, the frames taken from it (newest
first, each with a mark if a decode failed since the one before), and the
reports of its operations. -/
structure History where
  queue : FrameQueue
  pushed : List QueuedFrame
  taken : List (QueuedFrame × Bool)
  failed : Bool
  reports : List Report
  asked : ℕ

namespace History

def init : History := ⟨.new, [], [], false, [], 0⟩

/-- The next state of the queue, with the report; `asked` counts the requests
since the queue was last out of recovery. -/
def report (x : History) (requested : Bool) (queue : FrameQueue) : History :=
  { x with
    queue
    reports := ⟨x.queue.recovering, requested, queue.recovering⟩ :: x.reports
    asked := if queue.recovering then x.asked + requested.toNat else 0 }

/-- A frame is taken. -/
def take (x : History) (frame : QueuedFrame) : History :=
  { x with taken := (frame, x.failed) :: x.taken, failed := false }

def step (x : History) : Op → Option History
  | .push frame =>
    match x.queue.push frame with
    | (.ok requested, queue) =>
      some { x.report requested queue with pushed := x.pushed ++ [frame] }
    | (.error _, queue) => some { x.report false queue with pushed := x.pushed ++ [frame] }
  | .recvTimeout =>
    match x.queue.recvTimeout with
    | (.ok frame, queue) => some ((x.report false queue).take frame)
    | (.error _, queue) => some (x.report false queue)
  | .recv =>
    match x.queue.recv with
    | none => none
    | some (.ok frame, queue) => some ((x.report false queue).take frame)
    | some (.error _, queue) => some (x.report false queue)
  | .decodeFailed =>
    match x.queue.decodeFailed with
    | (requested, queue) => some { x.report requested queue with failed := true }
  | .stop => some (x.report false x.queue.stop)

end History

/-! ### What a push does -/

/-- Serial-number order on the half ring: `id` comes after `last`. -/
def Ahead (last id : UInt32) : Prop := 0 < (id - last).toNat ∧ (id - last).toNat < 2 ^ 31

instance (last id : UInt32) : Decidable (Ahead last id) :=
  inferInstanceAs (Decidable (_ ∧ _))

theorem late_iff {last id : UInt32} : late last id = false ↔ Ahead last id := by
  have hhalf : serialHalfRange.toNat = 2 ^ 31 := rfl
  rw [late, Bool.or_eq_false_iff, beq_eq_false_iff_ne, decide_eq_false_iff_not, ge_iff_le,
    UInt32.le_iff_toNat_le, hhalf, Nat.not_le, Ahead, Nat.pos_iff_ne_zero]
  refine and_congr_left fun _ => not_congr ?_
  rw [← UInt32.toNat_inj]
  rfl

variable {q q' : FrameQueue} {r : Except Unit QueuedFrame}

/-- A push is refused, late, dropped or queued.  It is dropped for lack of the
frames before it, and the queue goes into recovery, or stays there; it is queued
behind what was there, or, if it is a key frame, alone. -/
theorem push_cases (hrec : q.recovering = true → q.frames = [])
    (frame : QueuedFrame) :
    (q.stopped = true ∧ q.push frame = (.error .stopped, q)) ∨
    (q.stopped = false ∧ q.lastFrameId.any (late · frame.1.header.frameId) = true ∧
      q.push frame = (.ok false, q)) ∨
    (q.stopped = false ∧ q.lastFrameId.any (late · frame.1.header.frameId) = false ∧
      frame.1.header.isKeyFrame = false ∧
      q.push frame = (.ok !q.recovering,
        { q with frames := [], lastFrameId := some frame.1.header.frameId, recovering := true })) ∨
    (q.stopped = false ∧ q.lastFrameId.any (late · frame.1.header.frameId) = false ∧
      ∃ kept, (kept = [] ∧ frame.1.header.isKeyFrame = true ∨
          kept = q.frames ∧ q.frames.length ≠ frameQueueCapacity ∧
            (q.recovering = true → frame.1.header.isKeyFrame = true)) ∧
        q.push frame = (.ok false,
          { q with
            frames := kept ++ [frame], lastFrameId := some frame.1.header.frameId
            recovering := false })) := by
  unfold push
  rcases hstopped : q.stopped with - | -
  · refine Or.inr ?_
    simp only [Bool.false_eq_true, if_false]
    rcases hlate : q.lastFrameId.any (late · frame.1.header.frameId) with - | -
    · refine Or.inr ?_
      simp only [Bool.false_eq_true, if_false]
      generalize hover : (q.lastFrameId.any (frame.1.header.frameId - · != 1) ||
        q.frames.length == frameQueueCapacity) = overflow
      rcases hkey : frame.1.header.isKeyFrame with - | -
      · rcases overflow with - | -
        · rcases hr : q.recovering with - | -
          · -- in order, with room
            obtain ⟨-, hroom⟩ := Bool.or_eq_false_iff.mp hover
            refine Or.inr ⟨trivial, trivial, q.frames, Or.inr ⟨rfl, by simpa using hroom, by simp⟩, ?_⟩
            simp
          · refine Or.inl ⟨trivial, trivial, rfl, ?_⟩
            simp [hrec hr]
        · refine Or.inl ⟨trivial, trivial, rfl, ?_⟩
          simp
      · refine Or.inr ⟨trivial, trivial, if overflow then [] else q.frames, ?_, ?_⟩
        · rcases overflow with - | -
          · obtain ⟨-, hroom⟩ := Bool.or_eq_false_iff.mp hover
            exact Or.inr ⟨rfl, by simpa using hroom, fun _ => rfl⟩
          · exact Or.inl ⟨rfl, rfl⟩
        · simp
    · exact Or.inl ⟨trivial, rfl, by simp⟩
  · exact Or.inl ⟨rfl, by simp⟩

/-! ### What `recv` does -/

theorem recv_cases (h : q.recv = some (r, q')) :
    (∃ frame, r = .ok frame ∧ q.recvTimeout = (.ok frame, q')) ∨ (r = .error () ∧ q' = q) := by
  unfold recv at h
  split at h
  · cases h
    exact Or.inr ⟨rfl, rfl⟩
  next hstopped =>
    split at h
    · cases h
    next frame rest hframes =>
      cases h
      refine Or.inl ⟨frame, rfl, ?_⟩
      rw [recvTimeout, if_neg hstopped, hframes]

theorem recv_eq (h : q.recv = some (r, q')) :
    q' = { q with frames := q'.frames } := by
  rcases recv_cases h with ⟨frame, -, hr⟩ | ⟨-, rfl⟩
  · exact (recvTimeout_ok hr).2.2
  · rfl

theorem stopped_recv
    (h : q.recv = some (r, q')) : q'.stopped = q.stopped := by
  rw [recv_eq h]

theorem recovering_recv
    (h : q.recv = some (r, q')) : q'.recovering = q.recovering := by
  rw [recv_eq h]

/-! ### Continuity -/

/-- The frames that came in time: each is ahead of the one before it. -/
def onTime (pushed : List QueuedFrame) : List QueuedFrame :=
  pushed.foldl (fun acc frame =>
    if ∀ last ∈ acc.getLast?, Ahead last.1.header.frameId frame.1.header.frameId then
      acc ++ [frame]
    else acc) []

theorem onTime_append (pushed : List QueuedFrame) (frame : QueuedFrame) :
    onTime (pushed ++ [frame]) =
      if ∀ last ∈ (onTime pushed).getLast?, Ahead last.1.header.frameId frame.1.header.frameId then
        onTime pushed ++ [frame]
      else onTime pushed := by
  rw [onTime, List.foldl_append]
  rfl

/-- The id of the frame that came in time last. -/
def newest (pushed : List QueuedFrame) : Option UInt32 :=
  (onTime pushed).getLast?.map (·.1.header.frameId)

theorem late_newest {pushed : List QueuedFrame} {frame : QueuedFrame} :
    (newest pushed).any (late · frame.1.header.frameId) = false ↔
      ∀ last ∈ (onTime pushed).getLast?, Ahead last.1.header.frameId frame.1.header.frameId := by
  rw [newest]
  rcases (onTime pushed).getLast? with - | last
  · simp
  · simp [late_iff]

namespace History

/-- What holds of the queue and of what was taken from it. -/
structure Continuous (x : History) : Prop where
  queue : x.queue.Inv (x.taken.map (·.1.1))
  size_le : x.queue.frames.length ≤ frameQueueCapacity
  inTime : ((x.taken.map (·.1)).reverse ++ x.queue.frames).Sublist (onTime x.pushed)
  newest : x.queue.stopped = false → x.queue.lastFrameId = FrameQueue.newest x.pushed
  waits : x.failed = true → x.queue.stopped = false →
    (∀ g, x.queue.frames.head? = some g → g.1.header.isKeyFrame = true) ∧
      (x.queue.frames = [] → x.queue.recovering = true)
  afterFailure : ∀ e ∈ x.taken, e.2 = true → e.1.1.header.isKeyFrame = true

theorem continuous_init : Continuous init where
  queue := inv_new
  size_le := Nat.zero_le _
  inTime := List.Sublist.refl _
  newest _ := rfl
  waits h := by cases h
  afterFailure := by simp [init]

variable {x x' : History} {q : FrameQueue} {op : Op}

theorem Continuous.push (h : Continuous x) (frame : QueuedFrame) (requested : Bool) :
    Continuous { x.report requested (x.queue.push frame).2 with
      pushed := x.pushed ++ [frame] } := by
  have hqueue := inv_push h.queue frame
  have hgrow : (onTime x.pushed).Sublist (onTime (x.pushed ++ [frame])) := by
    rw [onTime_append]
    split
    · exact List.sublist_append_left _ _
    · exact List.Sublist.refl _
  rcases push_cases h.queue.recovering_empty frame with ⟨hstopped, heq⟩ | ⟨hopen, hlate, heq⟩ |
    ⟨hopen, hnew, hkey, heq⟩ | ⟨hopen, hnew, kept, hkept, heq⟩
  · rw [heq] at hqueue ⊢
    exact ⟨hqueue, h.size_le, h.inTime.trans hgrow, fun hs => by simp [report, hstopped] at hs,
      h.waits, h.afterFailure⟩
  · rw [heq] at hqueue ⊢
    rw [h.newest hopen] at hlate
    have hsame : onTime (x.pushed ++ [frame]) = onTime x.pushed := by
      rw [onTime_append, if_neg]
      rw [← late_newest, hlate]
      exact Bool.noConfusion
    refine ⟨hqueue, h.size_le, h.inTime.trans hgrow, fun hs => ?_, h.waits, h.afterFailure⟩
    show x.queue.lastFrameId = FrameQueue.newest (x.pushed ++ [frame])
    rw [h.newest hs]
    unfold FrameQueue.newest
    rw [hsame]
  all_goals
    rw [h.newest hopen, late_newest] at hnew
    have hnext : onTime (x.pushed ++ [frame]) = onTime x.pushed ++ [frame] := by
      rw [onTime_append, if_pos hnew]
    have hnewest : FrameQueue.newest (x.pushed ++ [frame]) = some frame.1.header.frameId := by
      rw [FrameQueue.newest, hnext, List.getLast?_concat]
      rfl
    rw [heq] at hqueue ⊢
  · -- dropped
    refine ⟨hqueue, Nat.zero_le _, ?_, fun _ => hnewest.symm, fun _ _ => ⟨by simp [report],
      fun _ => rfl⟩, h.afterFailure⟩
    refine List.Sublist.trans ?_ hgrow
    exact (List.append_sublist_append_left _ |>.mpr (List.nil_sublist _)).trans h.inTime
  · -- queued
    have hpart : kept.Sublist x.queue.frames := by
      rcases hkept with ⟨rfl, -⟩ | ⟨rfl, -⟩
      · exact List.nil_sublist _
      · exact List.Sublist.refl _
    have hroom : kept.length < frameQueueCapacity := by
      rcases hkept with ⟨rfl, -⟩ | ⟨rfl, hroom, -⟩
      · exact Nat.zero_lt_succ _
      · exact lt_of_le_of_ne h.size_le hroom
    refine ⟨hqueue, ?_, ?_, fun _ => hnewest.symm, fun hfailed _ => ⟨fun g hg => ?_, fun hnil => ?_⟩,
      h.afterFailure⟩
    · show (kept ++ [frame]).length ≤ _
      rw [List.length_append]
      exact hroom
    · show (_ ++ (kept ++ [frame])).Sublist (onTime (x.pushed ++ [frame]))
      rw [hnext, ← List.append_assoc]
      exact (((List.append_sublist_append_left _).mpr hpart).trans h.inTime).append
        (List.Sublist.refl _)
    · obtain ⟨hhead, hempty⟩ := h.waits hfailed hopen
      rcases hkept with ⟨rfl, hkey⟩ | ⟨rfl, -, hkey⟩
      · obtain rfl : frame = g := by simpa [report] using hg
        exact hkey
      · rcases hframes : x.queue.frames with - | ⟨first, rest⟩
        · obtain rfl : frame = g := by simpa [report, hframes] using hg
          exact hkey (hempty hframes)
        · exact hhead g (by simpa [report, hframes] using hg)
    · simp [report] at hnil

theorem Continuous.report (h : Continuous x) (requested : Bool) :
    Continuous (x.report requested x.queue) :=
  ⟨h.queue, h.size_le, h.inTime, h.newest, h.waits, h.afterFailure⟩

theorem Continuous.take (h : Continuous x) {frame : QueuedFrame}
    (hq : x.queue.recvTimeout = (.ok frame, q)) :
    Continuous ((x.report false q).take frame) := by
  have hqueue := inv_recvTimeout h.queue hq
  obtain ⟨hopen, hframes, hrest⟩ := recvTimeout_ok hq
  have hsize := h.size_le
  have hinTime := h.inTime
  rw [hframes] at hsize hinTime
  refine ⟨hqueue, Nat.le_of_succ_le hsize, ?_, fun _ => ?_, (fun hfailed => nomatch hfailed),
    fun e he hfailed => ?_⟩
  · show ((frame :: x.taken.map (·.1)).reverse ++ q.frames).Sublist _
    rw [List.reverse_cons, List.append_assoc]
    exact hinTime
  · show q.lastFrameId = _
    rw [hrest]
    exact h.newest hopen
  · rcases List.mem_cons.mp he with rfl | hold
    · exact (h.waits hfailed hopen).1 frame (by rw [hframes]; rfl)
    · exact h.afterFailure e hold hfailed

theorem Continuous.decodeFailed (h : Continuous x) (requested : Bool) :
    Continuous { x.report requested x.queue.decodeFailed.2 with failed := true } := by
  have hqueue := inv_decodeFailed h.queue
  have hpart : x.queue.decodeFailed.2.frames.Sublist x.queue.frames := by
    unfold FrameQueue.decodeFailed
    split
    · exact List.Sublist.refl _
    · split
      · exact List.drop_sublist _ _
      · exact List.nil_sublist _
  have hstopped := stopped_decodeFailed x.queue
  have hlast : x.queue.decodeFailed.2.lastFrameId = x.queue.lastFrameId := by
    unfold FrameQueue.decodeFailed
    split
    · rfl
    · split
      · rfl
      · rfl
  refine ⟨hqueue, hpart.length_le.trans h.size_le,
    ((List.append_sublist_append_left _).mpr hpart).trans h.inTime,
    fun hopen => hlast.trans (h.newest (hstopped.symm.trans hopen)), fun _ hopen => ?_,
    h.afterFailure⟩
  replace hopen := hstopped.symm.trans hopen
  show (∀ g, x.queue.decodeFailed.2.frames.head? = some g → _) ∧
    (x.queue.decodeFailed.2.frames = [] → x.queue.decodeFailed.2.recovering = true)
  unfold FrameQueue.decodeFailed
  rw [if_neg (by simp [hopen])]
  split
  next key hkey =>
    obtain ⟨hlt, hiskey, -⟩ := List.findIdx?_eq_some_iff_getElem.mp hkey
    refine ⟨fun g hg => ?_, fun hnil => absurd (List.drop_eq_nil_iff.mp hnil) (Nat.not_le.mpr hlt)⟩
    rw [List.head?_drop, List.getElem?_eq_getElem hlt] at hg
    obtain rfl := Option.some.inj hg
    exact hiskey
  · exact ⟨by simp, fun _ => rfl⟩

theorem Continuous.stop (h : Continuous x) :
    Continuous (x.report false x.queue.stop) where
  queue := inv_stop h.queue
  size_le := Nat.zero_le _
  inTime := ((List.append_sublist_append_left _).mpr (List.nil_sublist _)).trans h.inTime
  newest hopen := nomatch hopen
  waits _ hopen := nomatch hopen
  afterFailure := h.afterFailure

/-- Beside a push, a failed decode and a stop, an operation takes a frame or changes
nothing; `recv` and `recv_timeout` take it in the same way. -/
theorem step_cases (hs : step x op = some x') :
    (∃ frame, x' = { x.report ((x.queue.push frame).1.toOption.getD false)
        (x.queue.push frame).2 with pushed := x.pushed ++ [frame] }) ∨
    (∃ frame q, x.queue.recvTimeout = (.ok frame, q) ∧ x' = (x.report false q).take frame) ∨
    x' = x.report false x.queue ∨
    x' = { x.report x.queue.decodeFailed.1 x.queue.decodeFailed.2 with failed := true } ∨
    x' = x.report false x.queue.stop := by
  cases op with
  | push frame =>
    refine Or.inl ⟨frame, ?_⟩
    simp only [step] at hs
    split at hs
    next requested queue heq =>
      cases hs
      rw [heq]
      rfl
    next e queue heq =>
      cases hs
      rw [heq]
      rfl
  | recvTimeout =>
    refine Or.inr ?_
    simp only [step] at hs
    split at hs
    next frame queue heq =>
      cases hs
      exact Or.inl ⟨frame, queue, heq, rfl⟩
    next e queue heq =>
      cases hs
      rw [recvTimeout_error heq]
      exact Or.inr (Or.inl rfl)
  | recv =>
    refine Or.inr ?_
    simp only [step] at hs
    split at hs
    · cases hs
    next frame queue heq =>
      cases hs
      rcases recv_cases heq with ⟨frame', hframe, hq⟩ | ⟨hframe, -⟩
      · cases hframe
        exact Or.inl ⟨frame, queue, hq, rfl⟩
      · cases hframe
    next queue heq =>
      cases hs
      rcases recv_cases heq with ⟨frame', hframe, -⟩ | ⟨-, rfl⟩
      · cases hframe
      · exact Or.inr (Or.inl rfl)
  | decodeFailed =>
    cases hs
    exact Or.inr (Or.inr (Or.inr (Or.inl rfl)))
  | stop =>
    cases hs
    exact Or.inr (Or.inr (Or.inr (Or.inr rfl)))

theorem continuous_step (h : Continuous x) (hs : step x op = some x') :
    Continuous x' := by
  obtain ⟨frame, rfl⟩ | ⟨frame, q, hq, rfl⟩ | rfl | rfl | rfl := step_cases hs
  · exact h.push frame _
  · exact h.take hq
  · exact h.report false
  · exact h.decodeFailed _
  · exact h.stop

/-- **Continuity.**  After any sequence of operations, of two frames taken one
after the other the second is a key frame or has the next id; the first frame
taken after a failed decode is a key frame; what was taken, and then what is
queued, came in time and in this order; and at most 4 frames are queued. -/
theorem continuity (ops : List Op) {x : History} (h : Machine.run step init ops = some x) :
    (x.taken.map (·.1.1)).IsChain (fun g f => Follows f g) ∧
      (∀ e ∈ x.taken, e.2 = true → e.1.1.header.isKeyFrame = true) ∧
      ((x.taken.map (·.1)).reverse ++ x.queue.frames).Sublist (onTime x.pushed) ∧
      x.queue.frames.length ≤ 4 := by
  have hx := Machine.run_inv continuous_step continuous_init h
  exact ⟨hx.queue.delivered_chain, hx.afterFailure, hx.inTime, hx.size_le⟩

/-- A key frame is taken, the frame after it comes too late to be missed, a
decode fails, and the next key frame is taken. -/
theorem continuity_recovered :
    ∃ x, Machine.run step init
        [.push (⟨⟨1, 0, 0, true, 1, 1⟩, [0], 0⟩, 0), .recvTimeout,
          .push (⟨⟨3, 0, 0, false, 1, 1⟩, [0], 0⟩, 1), .push (⟨⟨2, 0, 0, false, 1, 1⟩, [0], 0⟩, 2),
          .decodeFailed, .push (⟨⟨4, 0, 0, true, 1, 1⟩, [0], 0⟩, 3), .recv] = some x ∧
      x.taken.map (fun e => (e.1.1.header.frameId, e.2)) = [(4, true), (1, false)] ∧
      (x.taken.map (·.1.1)).IsChain (fun g f => Follows f g) ∧
      (∀ e ∈ x.taken, e.2 = true → e.1.1.header.isKeyFrame = true) ∧
      ((x.taken.map (·.1)).reverse ++ x.queue.frames).Sublist (onTime x.pushed) ∧
      x.queue.frames.length ≤ 4 :=
  ⟨_, rfl, rfl, continuity
    [.push (⟨⟨1, 0, 0, true, 1, 1⟩, [0], 0⟩, 0), .recvTimeout,
      .push (⟨⟨3, 0, 0, false, 1, 1⟩, [0], 0⟩, 1), .push (⟨⟨2, 0, 0, false, 1, 1⟩, [0], 0⟩, 2),
      .decodeFailed, .push (⟨⟨4, 0, 0, true, 1, 1⟩, [0], 0⟩, 3), .recv] rfl⟩

/-! ### Recovery -/

/-- A queue in recovery is empty, an operation requests a key frame exactly when
it takes the queue into recovery, and the request has been made once. -/
structure Accounted (x : History) : Prop where
  empty : x.queue.recovering = true → x.queue.frames = []
  entries : ∀ r ∈ x.reports, r.requested = (!r.before && r.after)
  asked : x.asked = x.queue.recovering.toNat

theorem Accounted.report (h : Accounted x) {requested : Bool}
    (hempty : q.recovering = true → q.frames = [])
    (hrequested : requested = (!x.queue.recovering && q.recovering)) :
    Accounted (x.report requested q) where
  empty := hempty
  entries r hr := by
    rcases List.mem_cons.mp hr with rfl | hold
    · exact hrequested
    · exact h.entries r hold
  asked := by
    show (if q.recovering then x.asked + requested.toNat else 0) = q.recovering.toNat
    rw [h.asked, hrequested]
    cases x.queue.recovering <;> cases q.recovering <;> rfl

theorem Accounted.of_eq {y : History} (h : Accounted x) (hq : y.queue = x.queue)
    (hr : y.reports = x.reports) (ha : y.asked = x.asked) : Accounted y :=
  ⟨hq ▸ h.empty, hr ▸ h.entries, by rw [ha, hq, h.asked]⟩

theorem Accounted.unchanged (h : Accounted x) :
    Accounted (x.report false x.queue) :=
  h.report h.empty (by simp)

theorem accounted_push (h : Accounted x) {frame : QueuedFrame}
    {r : Except QueueError Bool} (hq : x.queue.push frame = (r, q)) :
    Accounted (x.report (r.toOption.getD false) q) := by
  rcases push_cases h.empty frame with ⟨-, heq⟩ | ⟨-, -, heq⟩ | ⟨-, -, -, heq⟩ |
    ⟨-, -, kept, -, heq⟩
  all_goals
    rw [heq] at hq
    cases hq
  · exact h.unchanged
  · exact h.unchanged
  · exact h.report (fun _ => rfl) (by simp [Except.toOption])
  · exact h.report (fun hrec => nomatch hrec) (by simp [Except.toOption])

theorem accounted_taken (h : Accounted x) {frame : QueuedFrame}
    (hq : x.queue.recvTimeout = (.ok frame, q)) : Accounted ((x.report false q).take frame) := by
  obtain ⟨-, hframes, hrest⟩ := recvTimeout_ok hq
  have hrec : q.recovering = x.queue.recovering := by rw [hrest]
  have hreport : Accounted (x.report false q) := by
    refine h.report (fun hr => ?_) (by rw [hrec]; simp)
    rw [h.empty (hrec ▸ hr)] at hframes
    cases hframes
  exact hreport.of_eq rfl rfl rfl

theorem accounted_decodeFailed (h : Accounted x) :
    Accounted (x.report x.queue.decodeFailed.1 x.queue.decodeFailed.2) := by
  unfold FrameQueue.decodeFailed
  split
  · exact h.unchanged
  · split
    · exact h.report (fun hrec => nomatch hrec) (by simp)
    · exact h.report (fun _ => rfl) (by simp)

theorem accounted_step (h : Accounted x) (hs : step x op = some x') :
    Accounted x' := by
  obtain ⟨frame, rfl⟩ | ⟨frame, q, hq, rfl⟩ | rfl | rfl | rfl := step_cases hs
  · exact (accounted_push h rfl).of_eq rfl rfl rfl
  · exact accounted_taken h hq
  · exact h.unchanged
  · exact (accounted_decodeFailed h).of_eq rfl rfl rfl
  · exact h.report (fun _ => rfl) (by simp [FrameQueue.stop])

/-- **Recovery accounting.**  After any sequence of operations, a queue in
recovery holds no frames; every operation has requested a key frame exactly if
it took the queue into recovery; and since the queue was last out of recovery a
key frame has been requested once if it is in recovery, and not otherwise. -/
theorem recovery_accounting (ops : List Op) {x : History}
    (h : Machine.run step init ops = some x) :
    (x.queue.recovering = true → x.queue.frames = []) ∧
      (∀ r ∈ x.reports, r.requested = true ↔ r.before = false ∧ r.after = true) ∧
      x.asked = if x.queue.recovering then 1 else 0 := by
  have hinit : Accounted init := ⟨fun _ => rfl, by simp [init], rfl⟩
  have hx := Machine.run_inv accounted_step hinit h
  refine ⟨hx.empty, fun r hr => ?_, ?_⟩
  · rw [hx.entries r hr, Bool.and_eq_true, Bool.not_eq_true']
  · rw [hx.asked]
    cases x.queue.recovering <;> rfl

/-- A gap, and a failed decode after it: one request. -/
theorem recovery_accounting_gap :
    ∃ x, Machine.run step init
        [.push (⟨⟨1, 0, 0, true, 1, 1⟩, [0], 0⟩, 0), .push (⟨⟨3, 0, 0, false, 1, 1⟩, [0], 0⟩, 1),
          .decodeFailed] = some x ∧
      (x.queue.recovering = true → x.queue.frames = []) ∧
      (∀ r ∈ x.reports, r.requested = true ↔ r.before = false ∧ r.after = true) ∧
      x.asked = if x.queue.recovering then 1 else 0 :=
  ⟨_, rfl, recovery_accounting
    [.push (⟨⟨1, 0, 0, true, 1, 1⟩, [0], 0⟩, 0), .push (⟨⟨3, 0, 0, false, 1, 1⟩, [0], 0⟩, 1),
      .decodeFailed] rfl⟩

end History

end MahoRD.FrameQueue
