/-
MahoRD/Host/Handoff.lean

The hand-off of raw frames and controls to the encoder (`Handoff` and
`run_encoder` in `maho-host/src/native_pipeline.rs`).  The recorder replaces
the frame in the slot, the session adds to the controls, and the encoder takes
both.  A bitrate change may return older packets, so the encoder emits them
and looks again (`reselect`) until no bitrate is left; the frame it then holds
is selected, and nothing that comes later changes what is submitted with it.

`stop` throws away what is in the slot, the controls included.

The machine keeps the history of what was accepted, selected, submitted and
emitted; what the hand-off guarantees are laws of this history.
-/
import MahoRD.Lib.History
import MahoRD.Lib.Machine

namespace MahoRD.Host

open History

structure Controls where
  forceKeyframe : Bool
  bitrate : Option UInt32
  deriving DecidableEq

namespace Controls

def default : Controls := ⟨false, none⟩

end Controls

structure Work (T : Type*) where
  frame : Option T
  controls : Controls

/-- What the mutex protects. -/
structure Handoff (T : Type*) where
  active : Bool
  stopped : Bool
  frame : Option T
  controls : Controls

namespace Handoff

variable {T : Type*}

def new : Handoff T := ⟨false, false, none, .default⟩

def activate (h : Handoff T) : Handoff T := { h with active := true }

def publish (h : Handoff T) (frame : T) : Bool × Handoff T :=
  if h.stopped then (false, h) else (true, { h with frame := some frame })

def control (h : Handoff T) (forceKeyframe : Bool) (bitrate : Option UInt32) : Bool × Handoff T :=
  if h.stopped then (false, h)
  else (true, { h with controls :=
    ⟨h.controls.forceKeyframe || forceKeyframe, bitrate.or h.controls.bitrate⟩ })

/-- `none` while there is nothing to wake up for. -/
def next (h : Handoff T) : Option (Option (Work T) × Handoff T) :=
  if h.stopped then some (none, h)
  else if h.frame.isSome ∨ h.controls ≠ .default then
    some (some ⟨h.frame, h.controls⟩, { h with frame := none, controls := .default })
  else none

def reselect (h : Handoff T) (work : Work T) : Option (Work T) × Handoff T :=
  if h.stopped then (none, h)
  else
    (some ⟨h.frame.or work.frame, work.controls.forceKeyframe || h.controls.forceKeyframe,
      h.controls.bitrate.or work.controls.bitrate⟩,
      { h with frame := none, controls := .default })

def stop (h : Handoff T) : Handoff T :=
  { h with stopped := true, frame := none, controls := .default }

section

variable {h : Handoff T}

theorem publish_of_stopped (hs : h.stopped = true) (frame : T) : h.publish frame = (false, h) :=
  if_pos hs

theorem publish_of_open (hs : h.stopped = false) (frame : T) :
    h.publish frame = (true, { h with frame := some frame }) :=
  if_neg (by simp [hs])

theorem control_of_stopped (hs : h.stopped = true) (forceKeyframe : Bool) (bitrate : Option UInt32) :
    h.control forceKeyframe bitrate = (false, h) :=
  if_pos hs

theorem control_of_open (hs : h.stopped = false) (forceKeyframe : Bool) (bitrate : Option UInt32) :
    h.control forceKeyframe bitrate = (true, { h with controls :=
      ⟨h.controls.forceKeyframe || forceKeyframe, bitrate.or h.controls.bitrate⟩ }) :=
  if_neg (by simp [hs])

theorem reselect_of_stopped (hs : h.stopped = true) (work : Work T) :
    h.reselect work = (none, h) :=
  if_pos hs

theorem reselect_of_open (hs : h.stopped = false) (work : Work T) :
    h.reselect work = (some ⟨h.frame.or work.frame,
      work.controls.forceKeyframe || h.controls.forceKeyframe,
      h.controls.bitrate.or work.controls.bitrate⟩,
      { h with frame := none, controls := .default }) :=
  if_neg (by simp [hs])

end

end Handoff

namespace EncoderHandOff

variable {T O : Type*}

/-- Where the encoder is. -/
inductive Place (T O : Type*)
  /-- before `await_activation` -/
  | waiting
  /-- before `initialize` -/
  | initializing
  /-- in the outer loop, with the packets that it emits before `next` -/
  | looping (packets : List O)
  /-- in the inner loop, with the packets that it emits before `reselect` -/
  | draining (work : Work T) (packets : List O)
  /-- behind the inner loop -/
  | selected (work : Work T)
  /-- before `encode` -/
  | encoding (frame : T)
  /-- a packet was refused; before `stop` -/
  | refused
  | ended

inductive Event (T O : Type*)
  | published (frame : T)
  | requested (forceKeyframe : Bool) (bitrate : Option UInt32)
  | stopped
  | selected (frame : Option T)
  | bitrate (bitrate : UInt32) (packets : List O)
  | keyframe
  | encoded (frame : T) (packets : List O)
  | emitted (packet : O)

structure State (T O : Type*) where
  handoff : Handoff T
  place : Place T O
  log : List (Event T O)

def start : State T O := ⟨.new, .waiting, []⟩

/-- The label of a call of the encoder or of `emit` carries its result; `none` is an error. -/
inductive Action (T O : Type*)
  | activate
  | publish (frame : T)
  | control (forceKeyframe : Bool) (bitrate : Option UInt32)
  | stop
  | awaitActivation
  | init (ok : Bool)
  | next
  | bitrate (result : Option (List O))
  | reselect
  /-- `force_keyframe`, if the work asks for it -/
  | force
  | encode (result : Option (List O))
  | emit (accepted : Bool)
  | refuse

def step (s : State T O) : Action T O → Option (State T O)
  | .activate => some { s with handoff := s.handoff.activate }
  | .publish frame =>
    match s.handoff.publish frame with
    | (true, handoff) => some { s with handoff, log := s.log ++ [.published frame] }
    | (false, _) => some s
  | .control forceKeyframe bitrate =>
    match s.handoff.control forceKeyframe bitrate with
    | (true, handoff) =>
      some { s with handoff, log := s.log ++ [.requested forceKeyframe bitrate] }
    | (false, _) => some s
  | .stop => some { s with handoff := s.handoff.stop, log := s.log ++ [.stopped] }
  | .awaitActivation =>
    match s.place with
    | .waiting =>
      if s.handoff.stopped then some { s with place := .ended }
      else if s.handoff.active then some { s with place := .initializing }
      else none
    | _ => none
  | .init ok =>
    match s.place with
    | .initializing => some { s with place := if ok then .looping [] else .ended }
    | _ => none
  | .next =>
    match s.place with
    | .looping [] =>
      match s.handoff.next with
      | some (some work, handoff) => some { s with handoff, place := .draining work [] }
      | some (none, _) => some { s with place := .ended }
      | none => none
    | _ => none
  | .bitrate result =>
    match s.place with
    | .draining ⟨frame, forceKeyframe, some bitrate⟩ [] =>
      match result with
      | some packets =>
        some { s with
          place := .draining ⟨frame, forceKeyframe, none⟩ packets
          log := s.log ++ [.bitrate bitrate packets] }
      | none => some { s with place := .ended, log := s.log ++ [.bitrate bitrate []] }
    | _ => none
  | .reselect =>
    match s.place with
    | .draining ⟨frame, forceKeyframe, none⟩ [] =>
      match s.handoff.reselect ⟨frame, forceKeyframe, none⟩ with
      | (some ⟨frame, forceKeyframe, none⟩, handoff) =>
        some { s with
          handoff
          place := .selected ⟨frame, forceKeyframe, none⟩
          log := s.log ++ [.selected frame] }
      | (some work, handoff) => some { s with handoff, place := .draining work [] }
      | (none, _) => some { s with place := .ended }
    | _ => none
  | .force =>
    match s.place with
    | .selected work =>
      some { s with
        place := match work.frame with
          | some frame => .encoding frame
          | none => .looping []
        log := if work.controls.forceKeyframe then s.log ++ [.keyframe] else s.log }
    | _ => none
  | .encode result =>
    match s.place with
    | .encoding frame =>
      match result with
      | some packets =>
        some { s with place := .looping packets, log := s.log ++ [.encoded frame packets] }
      | none => some { s with place := .ended, log := s.log ++ [.encoded frame []] }
    | _ => none
  | .emit accepted =>
    match s.place with
    | .looping (packet :: packets) =>
      if accepted then some { s with place := .looping packets, log := s.log ++ [.emitted packet] }
      else some { s with place := .refused }
    | .draining work (packet :: packets) =>
      if accepted then
        some { s with place := .draining work packets, log := s.log ++ [.emitted packet] }
      else some { s with place := .refused }
    | _ => none
  | .refuse =>
    match s.place with
    | .refused =>
      some { s with handoff := s.handoff.stop, place := .ended, log := s.log ++ [.stopped] }
    | _ => none

abbrev run : State T O → List (Action T O) → Option (State T O) := Machine.run step

/-! ### Reading the history -/

@[simp] def Event.publishes : Event T O → Option T
  | .published frame => some frame
  | _ => none

@[simp] def Event.encodes : Event T O → Option T
  | .encoded frame _ => some frame
  | _ => none

@[simp] def Event.requests : Event T O → Option UInt32
  | .requested _ rate => rate
  | _ => none

@[simp] def Event.applies : Event T O → Option UInt32
  | .bitrate rate _ => some rate
  | _ => none

@[simp] def Event.returns : Event T O → List O
  | .bitrate _ packets | .encoded _ packets => packets
  | _ => []

@[simp] def Event.emits : Event T O → Option O
  | .emitted packet => some packet
  | _ => none

def published (log : List (Event T O)) : List T := log.filterMap Event.publishes

def encoded (log : List (Event T O)) : List T := log.filterMap Event.encodes

/-- The bitrate that was accepted last. -/
def requested (log : List (Event T O)) : Option UInt32 := (log.filterMap Event.requests).getLast?

/-- The bitrate that was applied last. -/
def applied (log : List (Event T O)) : Option UInt32 := (log.filterMap Event.applies).getLast?

/-- The packets that the calls of the encoder returned. -/
def returned (log : List (Event T O)) : List O := log.flatMap Event.returns

def emitted (log : List (Event T O)) : List O := log.filterMap Event.emits

section

variable (log : List (Event T O)) (e : Event T O)

@[simp] theorem published_concat : published (log ++ [e]) = published log ++ e.publishes.toList := by
  rw [published, List.filterMap_append]
  cases e <;> rfl

@[simp] theorem encoded_concat : encoded (log ++ [e]) = encoded log ++ e.encodes.toList := by
  rw [encoded, List.filterMap_append]
  cases e <;> rfl

@[simp] theorem requested_concat : requested (log ++ [e]) = e.requests.or (requested log) := by
  rw [requested, requested, List.filterMap_append, List.getLast?_append]
  rcases e with _ | ⟨_, _ | _⟩ | _ | _ | _ | _ | _ | _ <;> rfl

@[simp] theorem applied_concat : applied (log ++ [e]) = e.applies.or (applied log) := by
  rw [applied, applied, List.filterMap_append, List.getLast?_append]
  cases e <;> rfl

@[simp] theorem returned_concat : returned (log ++ [e]) = returned log ++ e.returns := by
  rw [returned, List.flatMap_append, List.flatMap_singleton]
  rfl

@[simp] theorem emitted_concat : emitted (log ++ [e]) = emitted log ++ e.emits.toList := by
  rw [emitted, List.filterMap_append]
  cases e <;> rfl

end

/-! ### The laws -/

/-- The last selection is of `frame`: the bitrate in force is the last one that was accepted before
it, and every keyframe that was asked for before it has been forced, unless one is `due`. -/
def Selection (log : List (Event T O)) (frame : Option T) (due : Bool) : Prop :=
  ∃ earlier since, log = earlier ++ .selected frame :: since ∧
    (∀ other, .selected other ∉ since) ∧
    applied log = requested earlier ∧
    Each (fun _ e later => ∀ bitrate, e = .requested true bitrate →
      .keyframe ∈ later ++ since ∨ due = true) earlier

/-- What holds of an event, given the events before it. -/
def Lawful (before : List (Event T O)) : Event T O → Prop
  | .published _ | .requested _ _ | .selected _ => .stopped ∉ before
  | .bitrate _ _ => emitted before = returned before
  | .encoded frame _ => emitted before = returned before ∧ Selection before (some frame) false
  | .stopped | .keyframe | .emitted _ => True

/-- The work that the encoder holds. -/
def Place.work : Place T O → Option (Work T)
  | .draining work _ | .selected work => some work
  | .encoding frame => some ⟨some frame, .default⟩
  | _ => none

def Place.Running : Place T O → Prop
  | .refused | .ended => False
  | _ => True

/-- A keyframe is still to be forced. -/
def keyframePending (s : State T O) : Bool :=
  s.handoff.controls.forceKeyframe || s.place.work.any (·.controls.forceKeyframe)

/-- The bitrate that is still to be applied. -/
def bitratePending (s : State T O) : Option UInt32 :=
  s.handoff.controls.bitrate.or (s.place.work.bind (·.controls.bitrate))

/-- What holds of an accepted control, given the events after it: the keyframe has been forced or is
pending; the bitrate has been applied, has been superseded or is pending. -/
def Kept (s : State T O) (after : List (Event T O)) : Event T O → Prop
  | .requested forceKeyframe bitrate =>
    (forceKeyframe = true → .keyframe ∈ after ∨ keyframePending s = true) ∧
    ∀ b, bitrate = some b →
      (∃ packets, .bitrate b packets ∈ after) ∨ (∃ k b', .requested k (some b') ∈ after) ∨
        bitratePending s = some b
  | _ => True

variable {e : Event T O} {log : List (Event T O)} {s s' : State T O} {place : Place T O}

theorem Selection.concat {frame : Option T} {due due' : Bool} (h : Selection log frame due) (hselected : ∀ other, e ≠ .selected other)
    (happlies : e.applies = none) (hdue : due = true → due' = true ∨ e = .keyframe) :
    Selection (log ++ [e]) frame due' := by
  obtain ⟨earlier, since, rfl, hlast, hrate, hforced⟩ := h
  refine ⟨earlier, since ++ [e], by simp, ?_, ?_, ?_⟩
  · intro other hmem
    rcases List.mem_append.mp hmem with hmem | hmem
    · exact hlast other hmem
    · exact hselected other (List.mem_singleton.mp hmem).symm
  · rw [applied_concat, happlies, Option.none_or, hrate]
  · refine hforced.imp fun _ e' later h rate he => ?_
    rw [← List.append_assoc]
    rcases h rate he with h | h
    · exact .inl (List.mem_append_left _ h)
    · rcases hdue h with h | rfl
      · exact .inr h
      · exact .inl (by simp)

theorem Kept.mono {after : List (Event T O)}
    (h : Kept s after e) (hkeyframe : keyframePending s = true → keyframePending s' = true)
    (hrate : ∀ b, bitratePending s = some b → bitratePending s' = some b) : Kept s' after e := by
  cases e with
  | requested forceKeyframe rate =>
    refine ⟨fun hk => (h.1 hk).imp_right hkeyframe, fun b hb => ?_⟩
    exact (h.2 b hb).imp_right fun hlater => hlater.imp_right (hrate b)
  | _ => trivial

theorem Kept.concat {after : List (Event T O)} {x : Event T O}
    (h : Kept s after e)
    (hkeyframe : keyframePending s = true → keyframePending s' = true ∨ x = .keyframe)
    (hrate : ∀ b, bitratePending s = some b → bitratePending s' = some b ∨
      (∃ packets, x = .bitrate b packets) ∨ ∃ k b', x = .requested k (some b')) :
    Kept s' (after ++ [x]) e := by
  cases e with
  | requested forceKeyframe rate =>
    refine ⟨fun hk => ?_, fun b hb => ?_⟩
    · rcases h.1 hk with h | h
      · exact .inl (List.mem_append_left _ h)
      · rcases hkeyframe h with h | rfl
        · exact .inr h
        · exact .inl (by simp)
    · rcases h.2 b hb with ⟨packets, h⟩ | ⟨k, b', h⟩ | h
      · exact .inl ⟨packets, List.mem_append_left _ h⟩
      · exact .inr (.inl ⟨k, b', List.mem_append_left _ h⟩)
      · rcases hrate b h with h | ⟨packets, rfl⟩ | ⟨k, b', rfl⟩
        · exact .inr (.inr h)
        · exact .inl ⟨packets, by simp⟩
        · exact .inr (.inl ⟨k, b', by simp⟩)
  | _ => trivial

/-! ### The invariant -/

def Place.frame (p : Place T O) : Option T := p.work.bind (·.frame)

/-- The packets that are still to be emitted. -/
def Place.packets : Place T O → List O
  | .looping packets | .draining _ packets => packets
  | _ => []

def Place.Selected (log : List (Event T O)) : Place T O → Prop
  | .selected work =>
    work.controls.bitrate = none ∧ Selection log work.frame work.controls.forceKeyframe
  | .encoding frame => Selection log (some frame) false
  | _ => True

/-- The frames that are going to be submitted whatever the hand-off says. -/
def Place.submissions : Place T O → ℕ
  | .selected work => work.frame.toList.length
  | .encoding _ => 1
  | _ => 0

structure Inv (s : State T O) : Prop where
  stopped : .stopped ∈ s.log ↔ s.handoff.stopped = true
  frames : (encoded s.log ++ s.place.frame.toList ++ s.handoff.frame.toList).Sublist
    (published s.log)
  outputs : s.place.Running → returned s.log = emitted s.log ++ s.place.packets
  emits : emitted s.log <+: returned s.log
  rate : .stopped ∉ s.log → s.place.Running →
    (bitratePending s).or (applied s.log) = requested s.log
  kept : .stopped ∉ s.log → s.place.Running → Each (fun _ e after => Kept s after e) s.log
  selected : s.place.Selected s.log
  lawful : Each (fun before e _ => Lawful before e) s.log
  last : Each (fun _ e after => e = .stopped →
    (encoded after).length + s.place.submissions ≤ 1) s.log

theorem inv_start : Inv (start : State T O) where
  stopped := by simp [start, Handoff.new]
  frames := by simp [start, Handoff.new, Place.frame, Place.work, encoded, published]
  outputs := fun _ => rfl
  emits := List.prefix_refl _
  rate := fun _ _ => rfl
  kept := fun _ _ => each_nil _
  selected := trivial
  lawful := each_nil _
  last := each_nil _

theorem Place.Selected.concat {p : Place T O}
    (h : p.Selected log) (hselected : ∀ other, e ≠ .selected other) (happlies : e.applies = none) :
    p.Selected (log ++ [e]) := by
  cases p with
  | selected work => exact ⟨h.1, h.2.concat hselected happlies .inl⟩
  | encoding frame => exact Selection.concat h hselected happlies .inl
  | _ => trivial

theorem last_concat {n m : ℕ}
    (h : Each (fun _ e after => e = .stopped → (encoded after).length + n ≤ 1) log)
    (hcount : e.encodes.toList.length + m ≤ n) (hm : e = .stopped → m ≤ 1) :
    Each (fun _ e after => e = .stopped → (encoded after).length + m ≤ 1) (log ++ [e]) := by
  refine each_concat.mpr ⟨h.imp fun _ _ after hle he => ?_, fun he => ?_⟩
  · have := hle he
    rw [encoded_concat, List.length_append]
    omega
  · simpa [encoded] using hm he

theorem last_mono {n m : ℕ}
    (h : Each (fun _ e after => e = .stopped → (encoded after).length + n ≤ 1) log) (hmn : m ≤ n) :
    Each (fun _ e after => e = .stopped → (encoded after).length + m ≤ 1) log :=
  h.imp fun _ _ _ hle he => Nat.le_trans (Nat.add_le_add_left hmn _) (hle he)

theorem Place.submissions_le (p : Place T O) : p.submissions ≤ 1 := by
  rcases p with _ | _ | _ | _ | ⟨_ | _, _⟩ | _ | _ | _ <;> simp [Place.submissions]

theorem inv_publish (h : Inv s) (hopen : s.handoff.stopped = false) (frame : T) :
    Inv { s with
      handoff := { s.handoff with frame := some frame }
      log := s.log ++ [.published frame] } where
  stopped := by simpa using h.stopped
  frames := by
    have hleft := (List.sublist_append_left _ _).trans h.frames
    simpa using hleft.append (List.Sublist.refl [frame])
  outputs hr := by simpa using h.outputs hr
  emits := by simpa using h.emits
  rate hs hr := by simpa [bitratePending] using h.rate (by simpa using hs) hr
  kept hs hr := each_concat.mpr ⟨(h.kept (by simpa using hs) hr).imp fun _ _ _ hk =>
    hk.concat .inl fun _ => .inl, trivial⟩
  selected := h.selected.concat nofun rfl
  lawful := h.lawful.concat (by simp [Lawful, h.stopped, hopen])
  last := last_concat h.last (by simp) (by simp)

theorem inv_control (h : Inv s) (hopen : s.handoff.stopped = false)
    (forceKeyframe : Bool) (rate : Option UInt32) :
    Inv { s with
      handoff := { s.handoff with controls :=
        ⟨s.handoff.controls.forceKeyframe || forceKeyframe, rate.or s.handoff.controls.bitrate⟩ }
      log := s.log ++ [.requested forceKeyframe rate] } where
  stopped := by simpa using h.stopped
  frames := by simpa using h.frames
  outputs hr := by simpa using h.outputs hr
  emits := by simpa using h.emits
  rate hs hr := by
    have hrate := h.rate (by simpa using hs) hr
    cases rate <;> simp_all [bitratePending]
  kept hs hr := by
    refine each_concat.mpr ⟨(h.kept (by simpa using hs) hr).imp fun _ _ _ hk => ?_, ?_⟩
    · refine hk.concat (fun hpending => .inl ?_) fun b hb => ?_
      · simp only [keyframePending, Bool.or_eq_true] at hpending ⊢
        tauto
      · cases rate with
        | none => exact .inl (by simpa [bitratePending] using hb)
        | some b' => exact .inr (.inr ⟨forceKeyframe, b', rfl⟩)
    · refine ⟨fun hk => .inr ?_, fun b hb => .inr (.inr ?_)⟩
      · simp [keyframePending, hk]
      · simp [bitratePending, hb]
  selected := h.selected.concat nofun rfl
  lawful := h.lawful.concat (by simp [Lawful, h.stopped, hopen])
  last := last_concat h.last (by simp) (by simp)

theorem inv_stop (h : Inv s) :
    Inv { s with handoff := s.handoff.stop, log := s.log ++ [.stopped] } where
  stopped := by simp [Handoff.stop]
  frames := by simpa [Handoff.stop] using (List.sublist_append_left _ _).trans h.frames
  outputs hr := by simpa using h.outputs hr
  emits := by simpa using h.emits
  rate hs := by simp at hs
  kept hs := by simp at hs
  selected := h.selected.concat nofun rfl
  lawful := h.lawful.concat trivial
  last := last_concat h.last (by simp) fun _ => s.place.submissions_le

theorem inv_end (h : Inv s)
    (hplace : place = .refused ∨ place = .ended) : Inv { s with place } where
  stopped := h.stopped
  frames := by
    refine List.Sublist.trans ?_ h.frames
    rcases hplace with rfl | rfl <;> simp [Place.frame, Place.work]
  outputs hr := by rcases hplace with rfl | rfl <;> exact hr.elim
  emits := h.emits
  rate _ hr := by rcases hplace with rfl | rfl <;> exact hr.elim
  kept _ hr := by rcases hplace with rfl | rfl <;> exact hr.elim
  selected := by rcases hplace with rfl | rfl <;> trivial
  lawful := h.lawful
  last := last_mono h.last (by rcases hplace with rfl | rfl <;> exact Nat.zero_le _)

theorem inv_start_up (h : Inv s)
    (hplace : s.place = .waiting ∧ place = .initializing ∨
      s.place = .initializing ∧ place = .looping []) : Inv { s with place } := by
  have hrunning : s.place.Running := by
    rcases hplace with ⟨hplace, -⟩ | ⟨hplace, -⟩ <;> simp [hplace, Place.Running]
  have hwork : place.work = s.place.work := by
    rcases hplace with ⟨hplace, rfl⟩ | ⟨hplace, rfl⟩ <;> simp [hplace, Place.work]
  exact {
    stopped := h.stopped
    frames := by simpa [Place.frame, hwork] using h.frames
    outputs := fun _ => by
      have hout := h.outputs hrunning
      rcases hplace with ⟨hplace, rfl⟩ | ⟨hplace, rfl⟩ <;>
        simpa [hplace, Place.packets] using hout
    emits := h.emits
    rate := fun hs _ => by simpa [bitratePending, hwork] using h.rate hs hrunning
    kept := fun hs _ => (h.kept hs hrunning).imp fun _ _ _ hk => hk.mono
      (by simp [keyframePending, hwork]) (by simp [bitratePending, hwork])
    selected := by rcases hplace with ⟨-, rfl⟩ | ⟨-, rfl⟩ <;> trivial
    lawful := h.lawful
    last := last_mono h.last (by
      rcases hplace with ⟨-, rfl⟩ | ⟨-, rfl⟩ <;> exact Nat.zero_le _) }

theorem inv_next (h : Inv s) (hplace : s.place = .looping []) :
    Inv { s with
      handoff := { s.handoff with frame := none, controls := .default }
      place := .draining ⟨s.handoff.frame, s.handoff.controls⟩ [] } where
  stopped := h.stopped
  frames := by simpa [hplace, Place.frame, Place.work] using h.frames
  outputs _ := by simpa [hplace, Place.packets] using h.outputs (by simp [hplace, Place.Running])
  emits := h.emits
  rate hs _ := by
    have hrate := h.rate hs (by simp [hplace, Place.Running])
    simpa [bitratePending, hplace, Place.work, Controls.default] using hrate
  kept hs _ := by
    refine (h.kept hs (by simp [hplace, Place.Running])).imp fun _ _ _ hk => hk.mono ?_ ?_
    · simp [keyframePending, hplace, Place.work, Controls.default]
    · simp [bitratePending, hplace, Place.work, Controls.default]
  selected := trivial
  lawful := h.lawful
  last := last_mono h.last (Nat.zero_le _)

theorem Inv.emitted_eq (h : Inv s) (hrunning : s.place.Running)
    (hpackets : s.place.packets = []) : emitted s.log = returned s.log := by
  simpa [hpackets] using (h.outputs hrunning).symm

theorem inv_bitrate (h : Inv s) {frame : Option T} {forceKeyframe : Bool}
    {rate : UInt32} (hplace : s.place = .draining ⟨frame, ⟨forceKeyframe, some rate⟩⟩ [])
    (packets : List O) :
    Inv { s with
      place := .draining ⟨frame, ⟨forceKeyframe, none⟩⟩ packets
      log := s.log ++ [.bitrate rate packets] } := by
  have hrunning : s.place.Running := by simp [hplace, Place.Running]
  have hdone := h.emitted_eq hrunning (by rw [hplace]; rfl)
  exact {
    stopped := by simpa using h.stopped
    frames := by simpa [hplace, Place.frame, Place.work] using h.frames
    outputs := fun _ => by simp [hdone, Place.packets]
    emits := by simp [hdone]
    rate := fun hs _ => by
      -- the bitrate that was due is now the one in force
      have hrate := h.rate (by simpa using hs) hrunning
      simp only [bitratePending, hplace, Place.work, Option.bind_some] at hrate
      cases hslot : s.handoff.controls.bitrate with
      | none => simpa [bitratePending, Place.work, hslot] using hrate
      | some b => simpa [bitratePending, Place.work, hslot] using hrate
    kept := fun hs _ => by
      refine each_concat.mpr ⟨(h.kept (by simpa using hs) hrunning).imp fun _ _ _ hk =>
        hk.concat (fun hp => .inl ?_) fun b hb => ?_, trivial⟩
      · simpa [keyframePending, hplace, Place.work] using hp
      · cases hslot : s.handoff.controls.bitrate with
        | none =>
          obtain rfl : rate = b := by simpa [bitratePending, hslot, hplace, Place.work] using hb
          exact .inr (.inl ⟨packets, rfl⟩)
        | some b' => exact .inl (by simpa [bitratePending, hslot] using hb)
    selected := trivial
    lawful := h.lawful.concat hdone
    last := last_concat h.last (by simp [Place.submissions]) nofun }

theorem inv_reselect_again (h : Inv s) {frame : Option T} {forceKeyframe : Bool}
    (hplace : s.place = .draining ⟨frame, ⟨forceKeyframe, none⟩⟩ []) :
    Inv { s with
      handoff := { s.handoff with frame := none, controls := .default }
      place := .draining ⟨s.handoff.frame.or frame,
        ⟨forceKeyframe || s.handoff.controls.forceKeyframe, s.handoff.controls.bitrate⟩⟩ [] } where
  stopped := h.stopped
  frames := by
    have hframes := h.frames
    simp only [hplace, Place.frame, Place.work, Option.bind_some] at hframes ⊢
    cases hslot : s.handoff.frame with
    | none => simpa [hslot] using hframes
    | some newer =>
      -- the frame in hand is dropped for the newer one
      refine List.Sublist.trans ?_ hframes
      simp [hslot]
  outputs _ := by simpa [hplace, Place.packets] using h.outputs (by simp [hplace, Place.Running])
  emits := h.emits
  rate hs _ := by
    have hrate := h.rate hs (by simp [hplace, Place.Running])
    simpa [bitratePending, hplace, Place.work, Controls.default] using hrate
  kept hs _ := by
    refine (h.kept hs (by simp [hplace, Place.Running])).imp fun _ _ _ hk => hk.mono ?_ ?_
    · simp [keyframePending, hplace, Place.work, Controls.default, or_comm]
    · simp [bitratePending, hplace, Place.work, Controls.default]
  selected := trivial
  lawful := h.lawful
  last := last_mono h.last (Nat.zero_le _)

theorem inv_select (h : Inv s) (hopen : s.handoff.stopped = false)
    (hslot : s.handoff.controls = .default) {frame : Option T} {forceKeyframe : Bool}
    (hplace : s.place = .draining ⟨frame, ⟨forceKeyframe, none⟩⟩ []) :
    Inv { s with
      place := .selected ⟨frame, ⟨forceKeyframe, none⟩⟩
      log := s.log ++ [.selected frame] } := by
  have hrunning : s.place.Running := by simp [hplace, Place.Running]
  have hnever : .stopped ∉ s.log := by simp [h.stopped, hopen]
  have hkept := h.kept hnever hrunning
  exact {
    stopped := by simpa using h.stopped
    frames := by simpa [hplace, Place.frame, Place.work] using h.frames
    outputs := fun _ => by simpa [hplace, Place.packets] using h.outputs hrunning
    emits := by simpa using h.emits
    rate := fun _ _ => by
      simpa [bitratePending, hplace, Place.work] using h.rate hnever hrunning
    kept := fun _ _ => by
      refine each_concat.mpr ⟨hkept.imp fun _ _ _ hk => hk.concat (fun hp => .inl ?_)
        fun b hb => .inl ?_, trivial⟩
      · simpa [keyframePending, hplace, Place.work] using hp
      · simpa [bitratePending, hplace, Place.work] using hb
    selected := by
      refine ⟨rfl, s.log, [], rfl, nofun, ?_, hkept.imp fun _ e later hk rate he => ?_⟩
      · simpa [bitratePending, hplace, Place.work, hslot, Controls.default] using
          h.rate hnever hrunning
      · subst he
        simpa [keyframePending, hplace, Place.work, hslot, Controls.default] using hk.1 rfl
    lawful := h.lawful.concat hnever
    last := each_concat.mpr ⟨fun before e after hlog he => absurd (he ▸ hlog ▸ by simp) hnever,
      nofun⟩ }

theorem inv_force (h : Inv s) {work : Work T} (hplace : s.place = .selected work) :
    Inv { s with
      place := match work.frame with
        | some frame => .encoding frame
        | none => .looping []
      log := if work.controls.forceKeyframe then s.log ++ [.keyframe] else s.log } := by
  obtain ⟨frame, forceKeyframe, bitrate⟩ := work
  have hrunning : s.place.Running := by simp [hplace, Place.Running]
  obtain ⟨rfl, hselection⟩ : bitrate = none ∧ Selection s.log frame forceKeyframe := by
    simpa [hplace, Place.Selected] using h.selected
  -- only the keyframe leaves the work in hand
  have hforced : Inv { s with
      place := .selected ⟨frame, ⟨false, none⟩⟩
      log := if forceKeyframe then s.log ++ [.keyframe] else s.log } := by
    cases forceKeyframe with
    | false => rwa [if_neg Bool.false_ne_true, ← hplace]
    | true =>
      rw [if_pos rfl]
      exact {
        stopped := by simpa using h.stopped
        frames := by simpa [hplace, Place.frame, Place.work] using h.frames
        outputs := fun _ => by simpa [hplace, Place.packets] using h.outputs hrunning
        emits := by simpa using h.emits
        rate := fun hs _ => by
          simpa [bitratePending, hplace, Place.work] using h.rate (by simpa using hs) hrunning
        kept := fun hs _ => each_concat.mpr ⟨(h.kept (by simpa using hs) hrunning).imp
          fun _ _ _ hk => hk.concat (fun _ => .inr rfl) fun b hb => .inl (by
            simpa [bitratePending, hplace, Place.work] using hb), trivial⟩
        selected := ⟨rfl, hselection.concat nofun rfl fun _ => .inr rfl⟩
        lawful := h.lawful.concat trivial
        last := by
          have hlast := h.last
          rw [hplace] at hlast
          exact last_concat hlast (by simp [Place.submissions]) nofun }
  cases frame with
  | none => exact {
      hforced with
      outputs := fun _ => hforced.outputs trivial
      rate := fun hs _ => hforced.rate hs trivial
      kept := fun hs _ => hforced.kept hs trivial
      selected := trivial }
  | some frame => exact {
      hforced with
      outputs := fun _ => hforced.outputs trivial
      rate := fun hs _ => hforced.rate hs trivial
      kept := fun hs _ => hforced.kept hs trivial
      selected := hforced.selected.2 }

theorem inv_encode (h : Inv s) {frame : T} (hplace : s.place = .encoding frame)
    (packets : List O) :
    Inv { s with place := .looping packets, log := s.log ++ [.encoded frame packets] } := by
  have hrunning : s.place.Running := by simp [hplace, Place.Running]
  have hdone := h.emitted_eq hrunning (by rw [hplace]; rfl)
  have hselected := h.selected
  have hlast := h.last
  rw [hplace] at hselected hlast
  exact {
    stopped := by simpa using h.stopped
    frames := by simpa [hplace, Place.frame, Place.work] using h.frames
    outputs := fun _ => by simp [hdone, Place.packets]
    emits := by simp [hdone]
    rate := fun hs _ => by
      simpa [bitratePending, hplace, Place.work, Controls.default] using
        h.rate (by simpa using hs) hrunning
    kept := fun hs _ => by
      refine each_concat.mpr ⟨(h.kept (by simpa using hs) hrunning).imp fun _ _ _ hk =>
        hk.concat (fun hp => .inl ?_) fun b hb => .inl ?_, trivial⟩
      · simpa [keyframePending, hplace, Place.work, Controls.default] using hp
      · simpa [bitratePending, hplace, Place.work, Controls.default] using hb
    selected := trivial
    lawful := h.lawful.concat ⟨hdone, hselected⟩
    last := last_concat hlast (by simp [Place.submissions]) nofun }

theorem inv_emit (h : Inv s) {packet : O} {packets : List O}
    (hplace : s.place = .looping (packet :: packets) ∧ place = .looping packets ∨
      ∃ work, s.place = .draining work (packet :: packets) ∧ place = .draining work packets) :
    Inv { s with place, log := s.log ++ [.emitted packet] } := by
  have hwork : place.work = s.place.work := by
    rcases hplace with ⟨hplace, rfl⟩ | ⟨work, hplace, rfl⟩ <;> simp [hplace, Place.work]
  have hrunning : s.place.Running := by
    rcases hplace with ⟨hplace, -⟩ | ⟨work, hplace, -⟩ <;> simp [hplace, Place.Running]
  have hout : returned s.log = emitted s.log ++ packet :: place.packets := by
    have hout := h.outputs hrunning
    rcases hplace with ⟨hplace, rfl⟩ | ⟨work, hplace, rfl⟩ <;>
      simpa [hplace, Place.packets] using hout
  have hselected (log : List (Event T O)) : place.Selected log := by
    rcases hplace with ⟨-, rfl⟩ | ⟨work, -, rfl⟩ <;> trivial
  have hlast := h.last
  exact {
    stopped := by simpa using h.stopped
    frames := by simpa [Place.frame, hwork] using h.frames
    outputs := fun _ => by simp [hout]
    emits := by simp [hout]
    rate := fun hs _ => by
      simpa [bitratePending, hwork] using h.rate (by simpa using hs) hrunning
    kept := fun hs _ => by
      refine each_concat.mpr ⟨(h.kept (by simpa using hs) hrunning).imp fun _ _ _ hk =>
        hk.concat (fun hp => .inl ?_) fun b hb => .inl ?_, trivial⟩
      · simpa [keyframePending, hwork] using hp
      · simpa [bitratePending, hwork] using hb
    selected := hselected _
    lawful := h.lawful.concat trivial
    last := by
      rcases hplace with ⟨hplace, rfl⟩ | ⟨work, hplace, rfl⟩ <;> rw [hplace] at hlast <;>
        exact last_concat hlast (by simp [Place.submissions]) nofun }

theorem inv_step {a : Action T O} (h : Inv s) (hs : step s a = some s') :
    Inv s' := by
  cases a with
  | activate =>
    cases hs
    exact { h with }
  | publish frame =>
    cases hopen : s.handoff.stopped with
    | false =>
      simp only [step, Handoff.publish_of_open hopen] at hs
      cases hs
      exact inv_publish h hopen frame
    | true =>
      simp only [step, Handoff.publish_of_stopped hopen] at hs
      cases hs
      exact h
  | control forceKeyframe bitrate =>
    cases hopen : s.handoff.stopped with
    | false =>
      simp only [step, Handoff.control_of_open hopen] at hs
      cases hs
      exact inv_control h hopen forceKeyframe bitrate
    | true =>
      simp only [step, Handoff.control_of_stopped hopen] at hs
      cases hs
      exact h
  | stop =>
    cases hs
    exact inv_stop h
  | awaitActivation =>
    simp only [step] at hs
    split at hs
    next hplace =>
      split at hs
      · cases hs
        exact inv_end h (.inr rfl)
      · split at hs
        · cases hs
          exact inv_start_up h (.inl ⟨hplace, rfl⟩)
        · cases hs
    · cases hs
  | init ok =>
    simp only [step] at hs
    split at hs
    next hplace =>
      cases hs
      cases ok with
      | true => exact inv_start_up h (.inr ⟨hplace, rfl⟩)
      | false => exact inv_end h (.inr rfl)
    · cases hs
  | next =>
    simp only [step] at hs
    split at hs
    next hplace =>
      rw [Handoff.next] at hs
      split at hs
      next hnext =>
        split at hnext
        · cases hnext
        · split at hnext <;> cases hnext
          cases hs
          exact inv_next h hplace
      · cases hs
        exact inv_end h (.inr rfl)
      · cases hs
    · cases hs
  | bitrate result =>
    simp only [step] at hs
    split at hs
    next hplace =>
      split at hs
      · cases hs
        exact inv_bitrate h hplace _
      · cases hs
        exact inv_end (inv_bitrate h hplace []) (.inr rfl)
    · cases hs
  | reselect =>
    simp only [step] at hs
    split at hs
    next frame forceKeyframe hplace =>
      cases hopen : s.handoff.stopped with
      | true =>
        simp only [Handoff.reselect_of_stopped hopen] at hs
        cases hs
        exact inv_end h (.inr rfl)
      | false =>
        have hagain := inv_reselect_again h hplace
        simp only [Handoff.reselect_of_open hopen, Option.or_none] at hs
        cases hrate : s.handoff.controls.bitrate with
        | some rate =>
          simp only [hrate] at hs hagain
          cases hs
          exact hagain
        | none =>
          simp only [hrate] at hs hagain
          cases hs
          exact inv_select hagain hopen rfl rfl
    · cases hs
  | force =>
    simp only [step] at hs
    split at hs
    next work hplace =>
      cases hs
      exact inv_force h hplace
    · cases hs
  | encode result =>
    simp only [step] at hs
    split at hs
    next frame hplace =>
      split at hs
      · cases hs
        exact inv_encode h hplace _
      · cases hs
        exact inv_end (inv_encode h hplace []) (.inr rfl)
    · cases hs
  | emit accepted =>
    simp only [step] at hs
    split at hs
    next packet packets hplace =>
      split at hs
      · cases hs
        exact inv_emit h (.inl ⟨hplace, rfl⟩)
      · cases hs
        exact inv_end h (.inl rfl)
    next work packet packets hplace =>
      split at hs
      · cases hs
        exact inv_emit h (.inr ⟨work, hplace, rfl⟩)
      · cases hs
        exact inv_end h (.inl rfl)
    · cases hs
  | refuse =>
    simp only [step] at hs
    split at hs
    · cases hs
      exact inv_end (inv_stop h) (.inr rfl)
    · cases hs

theorem inv_run {as : List (Action T O)} (h : run start as = some s) : Inv s :=
  Machine.run_inv inv_step inv_start h

/-! ### The hand-off -/

/-- **What the hand-off guarantees, whatever the order of the calls.** -/
theorem encoder_hand_off {as : List (Action T O)} {s : State T O} (h : run start as = some s) :
    (encoded s.log).Sublist (published s.log) ∧
    (.stopped ∉ s.log → s.place.Running → Each (fun _ e after => Kept s after e) s.log) ∧
    Each (fun before e _ => Lawful before e) s.log ∧
    emitted s.log <+: returned s.log ∧
    Each (fun _ e after => e = .stopped → (encoded after).length ≤ 1) s.log := by
  have hinv := inv_run h
  refine ⟨?_, hinv.kept, hinv.lawful, hinv.emits, ?_⟩
  · have hleft := (List.sublist_append_left _ _).trans hinv.frames
    exact (List.sublist_append_left _ _).trans hleft
  · exact last_mono hinv.last (Nat.zero_le _)

/-- A bitrate and a keyframe come while the encoder drains an older bitrate: both are applied before
the newer frame is submitted. -/
def exampleRun : List (Action ℕ ℕ) :=
  [.activate, .awaitActivation, .init true, .publish 1, .control false (some 500), .next,
    .bitrate (some [10]), .publish 2, .control true (some 900), .emit true, .reselect,
    .bitrate (some []), .reselect, .force, .encode (some [20]), .emit true]

theorem encoder_hand_off_drained : ∃ s, run start exampleRun = some s ∧
    encoded s.log = [2] ∧ (encoded s.log).Sublist (published s.log) :=
  ⟨_, rfl, rfl, (encoder_hand_off (show run start exampleRun = some _ from rfl)).1⟩

/-- A keyframe that was accepted is thrown away by `stop`; a keyframe that comes after the selection
misses the next frame; a frame that is selected is submitted after `stop`. -/
theorem encoder_hand_off_late :
    (∃ s, run (start : State ℕ ℕ) [.control true none, .stop] = some s ∧
      s.log = [.requested true none, .stopped] ∧ keyframePending s = false) ∧
    (∃ s, run (start : State ℕ ℕ) [.activate, .awaitActivation, .init true, .publish 1, .next,
        .reselect, .control true none, .force, .encode (some [])] = some s ∧
      s.log = [.published 1, .selected (some 1), .requested true none, .encoded 1 []]) ∧
    ∃ s, run (start : State ℕ ℕ) [.activate, .awaitActivation, .init true, .publish 1, .next,
        .reselect, .stop, .force, .encode (some [])] = some s ∧
      s.log = [.published 1, .selected (some 1), .stopped, .encoded 1 []] :=
  ⟨⟨_, rfl, rfl, rfl⟩, ⟨_, rfl, rfl⟩, _, rfl, rfl⟩

end EncoderHandOff
end MahoRD.Host
