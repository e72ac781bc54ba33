/-
MahoRD/Tauri/DesktopAudio.lean

The audio output of the desktop client (`DesktopAudio` over `CpalDesktopBackend` in
`tauri-shell/src-tauri/src/lib.rs`, with `CpalAudioOutput` of `maho-render/src/audio.rs`).

The devices are looked up anew for each listing, for each choice and for each output that is
opened.  An id is a place in such a look (`carrier`), so that a choice means the device that
carried the id in the listing that the user had been given.  What the sound system answers in the
course of an action, and so each device that is plugged in between, is an argument (`Sound`).  No
lock is poisoned.
-/
import MahoRD.Audio.PlaybackQueue

namespace MahoRD.AudioOutput

open Playback (QueueState)

variable {δ : Type}

/-! ### The sound system -/

structure DesktopAudioDevice where
  id : String
  name : String
  supported : Bool

structure AudioOutputStatus where
  consumedSamples : UInt64
  lastError : Option String

inductive Failure
  /-- What the sound system said. -/
  | device (text : String)
  /-- no default audio output device -/
  | noOutputDevice
  /-- output device does not support 48 kHz stereo f32 PCM -/
  | unsupportedOutputConfig
  /-- volume must be finite and in 0..=1, got `volume` -/
  | invalidVolume (volume : Float32)
  /-- Unknown audio output: `id` -/
  | unknownOutput (id : String)
  /-- Unknown or unsupported audio output: `id` -/
  | unsupportedOutput (id : String)

/-- One look at the devices. -/
structure Enumeration (δ : Type) where
  outputDevices : Except String (List δ)
  name : δ → Except String String
  supportsPcm : δ → Except String Bool

/-- What is answered in the course of an action. -/
structure Sound (δ : Type) where
  /-- The action's own look. -/
  listing : Enumeration δ
  /-- The look of `open`. -/
  opening : Enumeration δ
  defaultOutputDevice : Option δ
  supportsPcm : δ → Except String Bool
  /-- `build_output_stream` and `play`. -/
  play : δ → Except String Unit
  status : Except String AudioOutputStatus

def Sound.selected (sound : Sound δ) : Option δ → Except Failure δ
  | some device => .ok device
  | none =>
    match sound.defaultOutputDevice with
    | some device => .ok device
    | none => .error .noOutputDevice

/-- `start_on_device`: the device that the output plays on. -/
def Sound.startOnDevice (sound : Sound δ) (selected : Option δ) : Except Failure δ :=
  match sound.selected selected with
  | .error e => .error e
  | .ok device =>
    match sound.supportsPcm device with
    | .error e => .error (.device e)
    | .ok false => .error .unsupportedOutputConfig
    | .ok true =>
      match sound.play device with
      | .error e => .error (.device e)
      | .ok () => .ok device

/-! ### The backend -/

def outputId (index : ℕ) : String := "output-" ++ toString index

namespace Enumeration

def entry (look : Enumeration δ) (index : ℕ) (device : δ) : Except String DesktopAudioDevice :=
  match look.name device with
  | .error e => .error e
  | .ok name =>
    match look.supportsPcm device with
    | .error e => .error e
    | .ok supported => .ok ⟨outputId index, name, supported⟩

/-- The first device that fails is the answer. -/
def entries (look : Enumeration δ) : ℕ → List δ → Except String (List DesktopAudioDevice)
  | _, [] => .ok []
  | index, device :: devices =>
    match look.entry index device with
    | .error e => .error e
    | .ok first =>
      match look.entries (index + 1) devices with
      | .error e => .error e
      | .ok rest => .ok (first :: rest)

end Enumeration

/-- The handles behind the ids of the last look. -/
structure CpalDesktopBackend (δ : Type) where
  retained : Option (List δ)

namespace CpalDesktopBackend

def devices (look : Enumeration δ) (backend : CpalDesktopBackend δ) :
    Except Failure (List DesktopAudioDevice) × CpalDesktopBackend δ :=
  match look.outputDevices with
  | .error e => (.error (.device e), backend)
  | .ok found =>
    match look.entries 0 found with
    | .error e => (.error (.device e), ⟨some found⟩)
    | .ok listed => (.ok listed, ⟨some found⟩)

/-- `open` -/
def openOutput (sound : Sound δ) (device : Option String) (backend : CpalDesktopBackend δ) :
    Except Failure δ × CpalDesktopBackend δ :=
  match device with
  | none => (sound.startOnDevice none, backend)
  | some id =>
    match backend.devices sound.opening with
    | (.error e, backend) => (.error e, backend)
    | (.ok listed, backend) =>
      match listed.findIdx? (fun device => device.id = id) with
      | none => (.error (.unknownOutput id), backend)
      | some index =>
        match (backend.retained.getD [])[index]? with
        -- there is a handle for each id
        | none => (.error (.unknownOutput id), backend)
        | some device => (sound.startOnDevice (some device), backend)

end CpalDesktopBackend

/-! ### The output -/

inductive AudioAction
  | start
  | stop
  | status
  | list
  | volume (volume : Float32)
  | muted (muted : Bool)
  | device (device : Option String)

structure AudioPlayback where
  queue : Option QueueState
  error : Option Failure

structure DesktopAudioStatus where
  active : Bool
  volume : Float32
  muted : Bool
  deviceId : Option String
  devices : List DesktopAudioDevice
  consumedSamples : UInt64
  error : Option Failure

/-- `output` is the device that is played on. -/
structure DesktopAudio (δ : Type) where
  backend : CpalDesktopBackend δ
  playback : AudioPlayback
  output : Option δ
  volume : Float32
  muted : Bool
  deviceId : Option String
  devices : List DesktopAudioDevice
  sessionActive : Bool

namespace DesktopAudio

def new : DesktopAudio δ where
  backend := ⟨none⟩
  playback := ⟨none, none⟩
  output := none
  volume := 1.0
  muted := false
  deviceId := none
  devices := []
  sessionActive := false

def stopOutput (audio : DesktopAudio δ) : DesktopAudio δ :=
  { audio with playback := { audio.playback with queue := none }, output := none }

def startOutput (sound : Sound δ) (audio : DesktopAudio δ) :
    Except Failure Unit × DesktopAudio δ :=
  let audio := audio.stopOutput
  match QueueState.default.setVolume audio.volume with
  | (.error _, _) => (.error (.invalidVolume audio.volume), audio)
  | (.ok (), queue) =>
    match audio.backend.openOutput sound audio.deviceId with
    | (.error e, backend) => (.error e, { audio with backend })
    | (.ok output, backend) =>
      (.ok (), { audio with
        backend, output := some output, playback := ⟨some (queue.setMuted audio.muted), none⟩ })

/-- The former device has been stopped, and the new one is known. -/
def choose (sound : Sound δ) (device : Option String) (audio : DesktopAudio δ) :
    Except Failure Unit × DesktopAudio δ :=
  let audio := { audio with deviceId := device }
  if audio.sessionActive then audio.startOutput sound else (.ok (), audio)

def setDevice (sound : Sound δ) (device : Option String) (audio : DesktopAudio δ) :
    Except Failure Unit × DesktopAudio δ :=
  let audio := audio.stopOutput
  match device with
  | none => audio.choose sound none
  | some id =>
    match audio.backend.devices sound.listing with
    | (.error e, backend) => (.error e, { audio with backend })
    | (.ok devices, backend) =>
      let audio := { audio with backend, devices }
      if devices.any (fun d => d.id = id && d.supported) then audio.choose sound (some id)
      else (.error (.unsupportedOutput id), audio)

/-- A queue is shared by its handles, so that the one that is attached changes. -/
def act (sound : Sound δ) (audio : DesktopAudio δ) : AudioAction →
    Except Failure Unit × DesktopAudio δ
  | .start => { audio with sessionActive := true }.startOutput sound
  | .stop => (.ok (), { audio with sessionActive := false }.stopOutput)
  | .status => (.ok (), audio)
  | .list =>
    match audio.backend.devices sound.listing with
    | (.error e, backend) => (.error e, { audio with backend })
    | (.ok devices, backend) => (.ok (), { audio with backend, devices })
  | .volume volume =>
    match (audio.playback.queue.getD .default).setVolume volume with
    | (.error _, _) => (.error (.invalidVolume volume), audio)
    | (.ok (), queue) =>
      (.ok (), { audio with
        playback := { audio.playback with queue := audio.playback.queue.map fun _ => queue }
        volume })
  | .muted muted =>
    (.ok (), { audio with
      playback := { audio.playback with
        queue := audio.playback.queue.map fun queue => queue.setMuted muted }
      muted })
  | .device device => audio.setDevice sound device

def view (audio : DesktopAudio δ) (consumedSamples : UInt64) : DesktopAudioStatus where
  active := audio.output.isSome
  volume := audio.volume
  muted := audio.muted
  deviceId := audio.deviceId
  devices := audio.devices
  consumedSamples
  error := audio.playback.error

/-- An output that has failed is stopped. -/
def snapshot (sound : Sound δ) (audio : DesktopAudio δ) :
    Except Failure DesktopAudioStatus × DesktopAudio δ :=
  match audio.output with
  | none => (.ok (audio.view 0), audio)
  | some _ =>
    match sound.status with
    | .error e => (.error (.device e), audio)
    | .ok status =>
      match status.lastError with
      | none => (.ok (audio.view status.consumedSamples), audio)
      | some e =>
        let audio := audio.stopOutput
        let audio :=
          { audio with playback := { audio.playback with error := some (.device e) } }
        (.ok (audio.view status.consumedSamples), audio)

def failed (e : Failure) (audio : DesktopAudio δ) : DesktopAudio δ :=
  { audio with playback := { audio.playback with error := some e } }

def apply (sound : Sound δ) (audio : DesktopAudio δ) (action : AudioAction) :
    Except Failure DesktopAudioStatus × DesktopAudio δ :=
  match audio.act sound action with
  | (.error e, audio) => (.error e, audio.failed e)
  | (.ok (), audio) =>
    match audio.snapshot sound with
    | (.error e, audio) => (.error e, audio.failed e)
    | (.ok status, audio) => (.ok status, audio)

end DesktopAudio

/-! ### What the user has been told -/

/-- The device that carries an id, among devices that are numbered from `index` on. -/
def carrierFrom (id : String) : ℕ → List δ → Option δ
  | _, [] => none
  | index, device :: devices =>
    if outputId index = id then some device else carrierFrom id (index + 1) devices

def carrier (id : String) (devices : List δ) : Option δ := carrierFrom id 0 devices

/-- A listing that succeeds, with the devices behind it. -/
def Enumeration.list (look : Enumeration δ) : Option (List δ × List DesktopAudioDevice) :=
  match look.outputDevices with
  | .error _ => none
  | .ok found => (look.entries 0 found).toOption.map fun listed => (found, listed)

/-- Whether a choice is accepted. -/
def Enumeration.accepts (look : Enumeration δ) (id : String) : Bool :=
  look.list.any fun (_, listed) => listed.any fun d => d.id = id && d.supported

/-- An action with the answers that it gets. -/
abbrev Step (δ : Type) := AudioAction × Sound δ

/-- The output, with what its user has been told and has chosen. -/
structure Run (δ : Type) where
  audio : DesktopAudio δ
  /-- The devices behind the listing that is kept. -/
  listed : List δ
  /-- The devices behind the listing that was returned last. -/
  shown : List δ
  /-- What the chosen id stood for. -/
  chosen : Option δ

namespace Run

def new : Run δ := ⟨.new, [], [], none⟩

/-- The devices of a new listing. -/
def relisted (sound : Sound δ) : AudioAction → Option (List δ)
  | .list => sound.listing.list.map Prod.fst
  | .device (some _) => sound.listing.list.map Prod.fst
  | _ => none

/-- A choice is made from what was returned before it. -/
def chosenBy (run : Run δ) (sound : Sound δ) : AudioAction → Option δ
  | .device none => none
  | .device (some id) => if sound.listing.accepts id then carrier id run.shown else run.chosen
  | _ => run.chosen

def step (run : Run δ) : Step δ → Run δ
  | (action, sound) =>
    let listed := (relisted sound action).getD run.listed
    { audio := (run.audio.apply sound action).2
      listed
      shown := if (run.audio.apply sound action).1.isOk then listed else run.shown
      chosen := run.chosenBy sound action }

def after (steps : List (Step δ)) : Run δ := steps.foldl step new

/-- The id that an action opens an output for. -/
def opens (run : Run δ) (sound : Sound δ) : AudioAction → Option String
  | .start => run.audio.deviceId
  | .device (some id) =>
    if sound.listing.accepts id && run.audio.sessionActive then some id else none
  | _ => none

/-- Where an output is opened for an id, the device that carries it by then is the chosen one, and
the output that a switch opens can tell its status. -/
structure Meets (run : Run δ) (action : AudioAction) (sound : Sound δ) : Prop where
  opened : ∀ id, run.opens sound action = some id → ∀ found listed device,
    sound.opening.list = some (found, listed) → carrier id found = some device →
      (sound.startOnDevice (some device)).isOk = true → run.chosenBy sound action = some device
  status : ∀ device, action = .device device → run.audio.sessionActive = true →
    sound.status.isOk = true

end Run

/-- What the actions have asked for, where it was accepted. -/
structure Asked where
  volume : Float32
  muted : Bool
  session : Bool

def Asked.new : Asked := ⟨1.0, false, false⟩

def Asked.step (asked : Asked) : AudioAction → Asked
  | .start => { asked with session := true }
  | .stop => { asked with session := false }
  | .volume volume =>
    if (QueueState.default.setVolume volume).1.isOk then { asked with volume } else asked
  | .muted muted => { asked with muted }
  | _ => asked

def asked (steps : List (Step δ)) : Asked := (steps.map Prod.fst).foldl Asked.step .new

/-- The output follows what has been asked for. -/
structure Follows (asked : Asked) (chosen : Option δ) (audio : DesktopAudio δ) : Prop where
  attached : audio.playback.queue.isSome = true ↔ audio.output.isSome = true
  session : audio.output.isSome = true → asked.session = true
  settings : ∀ queue, audio.playback.queue = some queue →
    queue.volume = asked.volume ∧ queue.muted = asked.muted
  device : ∀ id output, audio.deviceId = some id → audio.output = some output →
    chosen = some output

/-- Nothing plays, and nothing is attached. -/
def Silent (audio : DesktopAudio δ) : Prop := audio.output = none ∧ audio.playback.queue = none

/-! ### Looking the devices up -/

section Backend

variable {sound : Sound δ} {look : Enumeration δ} {backend backend' : CpalDesktopBackend δ}

variable {listed : List DesktopAudioDevice}

/-- A listing numbers its devices, so that an id is found at the place of the device it stands for. -/
theorem entries_findIdx? (id : String) {index : ℕ} {found : List δ} (h : look.entries index found = .ok listed) :
    (listed.findIdx? fun device => device.id = id).bind (fun i => found[i]?) =
      carrierFrom id index found := by
  induction found generalizing index listed with
  | nil =>
    cases h
    rfl
  | cons device found ih =>
    rw [Enumeration.entries] at h
    cases hfirst : look.entry index device with
    | error e =>
      rw [hfirst] at h
      cases h
    | ok first =>
      rw [hfirst] at h
      cases hrest : look.entries (index + 1) found with
      | error e =>
        rw [hrest] at h
        cases h
      | ok rest =>
        rw [hrest] at h
        cases h
        have hid : first.id = outputId index := by
          rw [Enumeration.entry] at hfirst
          cases hname : look.name device with
          | error e =>
            rw [hname] at hfirst
            cases hfirst
          | ok name =>
            rw [hname] at hfirst
            cases hsupported : look.supportsPcm device with
            | error e =>
              rw [hsupported] at hfirst
              cases hfirst
            | ok supported =>
              rw [hsupported] at hfirst
              cases hfirst
              rfl
        rw [List.findIdx?_cons, carrierFrom, hid]
        by_cases heq : outputId index = id
        · rw [if_pos heq, if_pos (decide_eq_true heq)]
          rfl
        · rw [if_neg heq, if_neg (by simpa using heq), ← ih hrest]
          cases rest.findIdx? fun device => device.id = id <;> rfl

theorem list_eq_some {found : List δ} :
    look.list = some (found, listed) ↔
      look.outputDevices = .ok found ∧ look.entries 0 found = .ok listed := by
  rw [Enumeration.list]
  cases look.outputDevices with
  | error e => exact ⟨fun h => (nomatch h), fun h => (nomatch h.1)⟩
  | ok devices =>
    cases hentries : look.entries 0 devices with
    | error e =>
      simp only [hentries]
      refine ⟨fun h => (nomatch h), ?_⟩
      rintro ⟨⟨⟩, h⟩
      rw [hentries] at h
      cases h
    | ok all =>
      simp only [hentries]
      constructor
      · rintro ⟨⟩
        exact ⟨rfl, hentries⟩
      · rintro ⟨⟨⟩, h⟩
        rw [hentries] at h
        cases h
        rfl

/-- A look of the backend is a listing, and the handles are those behind it. -/
theorem devices_ok
    (h : backend.devices look = (.ok listed, backend')) :
    ∃ found, look.list = some (found, listed) ∧ backend'.retained = some found := by
  rw [CpalDesktopBackend.devices] at h
  cases hfound : look.outputDevices with
  | error e =>
    rw [hfound] at h
    cases h
  | ok found =>
    simp only [hfound] at h
    cases hentries : look.entries 0 found with
    | error e =>
      rw [hentries] at h
      cases h
    | ok all =>
      rw [hentries] at h
      cases h
      exact ⟨found, list_eq_some.mpr ⟨hfound, hentries⟩, rfl⟩

theorem startOnDevice_some {device output : δ} (h : sound.startOnDevice (some device) = .ok output) :
    output = device := by
  simp only [Sound.startOnDevice, Sound.selected] at h
  cases hsupports : sound.supportsPcm device with
  | error e =>
    rw [hsupports] at h
    cases h
  | ok supported =>
    rw [hsupports] at h
    cases supported with
    | false => cases h
    | true =>
      cases hplay : sound.play device with
      | error e =>
        rw [hplay] at h
        cases h
      | ok u =>
        rw [hplay] at h
        exact (Except.ok.inj h).symm

/-- An output that is opened for an id plays on what carries the id by then. -/
theorem openOutput_some {id : String} {output : δ}
    (h : backend.openOutput sound (some id) = (.ok output, backend')) :
    ∃ found listed, sound.opening.list = some (found, listed) ∧ carrier id found = some output ∧
      (sound.startOnDevice (some output)).isOk = true := by
  rw [CpalDesktopBackend.openOutput] at h
  rcases hlook : backend.devices sound.opening with ⟨result, looked⟩
  rw [hlook] at h
  cases result with
  | error e => cases h
  | ok listed =>
    obtain ⟨found, hlist, hretained⟩ := devices_ok hlook
    have hentries := (list_eq_some.mp hlist).2
    have hcarrier := entries_findIdx? id hentries
    simp only at h
    cases hindex : listed.findIdx? fun device => device.id = id with
    | none =>
      rw [hindex] at h
      cases h
    | some index =>
      rw [hindex] at h hcarrier
      simp only [hretained, Option.getD_some] at h
      cases hdevice : found[index]? with
      | none =>
        rw [hdevice] at h
        cases h
      | some device =>
        rw [hdevice] at h
        have hstart := (Prod.ext_iff.mp h).1
        cases startOnDevice_some hstart
        refine ⟨found, listed, hlist, hcarrier.symm.trans hdevice, ?_⟩
        rw [show sound.startOnDevice (some output) = .ok output from hstart]
        rfl

end Backend

/-! ### One action -/

section Action

variable {sound : Sound δ} {audio audio' : DesktopAudio δ} {chosen : Option δ}
  {result : Except Failure Unit} {answer : Except Failure DesktopAudioStatus}

/-- What is kept of the actions so far. -/
def DesktopAudio.asked (audio : DesktopAudio δ) : Asked :=
  ⟨audio.volume, audio.muted, audio.sessionActive⟩

theorem setVolume_ok {queue queue' : QueueState} {volume : Float32}
    (h : queue.setVolume volume = (.ok (), queue')) : queue' = { queue with volume } := by
  rw [QueueState.setVolume] at h
  split_ifs at h
  · cases h
  · exact (Prod.ext_iff.mp h).2.symm

theorem setVolume_isOk (queue : QueueState) (volume : Float32) :
    (queue.setVolume volume).1.isOk = (QueueState.default.setVolume volume).1.isOk := by
  rw [QueueState.setVolume, QueueState.setVolume]
  split_ifs <;> rfl

theorem silent_stopOutput (audio : DesktopAudio δ) : Silent audio.stopOutput := ⟨rfl, rfl⟩

theorem Silent.follows {asked : Asked} (h : Silent audio) : Follows asked chosen audio := by
  obtain ⟨houtput, hqueue⟩ := h
  refine ⟨?_, fun h => ?_, fun queue h => ?_, fun id output _ h => ?_⟩
  · rw [houtput, hqueue]
    exact Iff.rfl
  · rw [houtput] at h
    cases h
  · rw [hqueue] at h
    cases h
  · rw [houtput] at h
    cases h

theorem startOutput_cases (h : audio.startOutput sound = (result, audio')) :
    audio'.asked = audio.asked ∧ audio'.deviceId = audio.deviceId ∧
      audio'.devices = audio.devices ∧
      ((∃ e, result = .error e ∧ Silent audio') ∨
        ∃ output queue backend, result = .ok () ∧ audio'.output = some output ∧
          audio'.playback.queue = some queue ∧ queue.volume = audio.volume ∧
          queue.muted = audio.muted ∧
          audio.backend.openOutput sound audio.deviceId = (.ok output, backend)) := by
  rw [DesktopAudio.startOutput] at h
  rcases hvolume : QueueState.default.setVolume audio.stopOutput.volume with ⟨set, queue⟩
  simp only [hvolume] at h
  cases set with
  | error e =>
    cases h
    exact ⟨rfl, rfl, rfl, .inl ⟨_, rfl, silent_stopOutput audio⟩⟩
  | ok u =>
    have hopen : audio.stopOutput.backend.openOutput sound audio.stopOutput.deviceId =
        audio.backend.openOutput sound audio.deviceId := rfl
    rcases hopened : audio.backend.openOutput sound audio.deviceId with ⟨opened, backend⟩
    simp only [hopen, hopened] at h
    cases opened with
    | error e =>
      cases h
      exact ⟨rfl, rfl, rfl, .inl ⟨e, rfl, rfl, rfl⟩⟩
    | ok output =>
      cases h
      have hqueue := setVolume_ok hvolume
      refine ⟨rfl, rfl, rfl, .inr ⟨output, _, backend, rfl, rfl, rfl, ?_, rfl, rfl⟩⟩
      rw [hqueue]
      rfl

/-- An output that is started in a session, for a device that may be played on. -/
theorem follows_startOutput (hsession : audio.sessionActive = true)
    (hopened : ∀ id, audio.deviceId = some id → ∀ found listed device,
      sound.opening.list = some (found, listed) → carrier id found = some device →
        (sound.startOnDevice (some device)).isOk = true → chosen = some device)
    (h : audio.startOutput sound = (result, audio')) : Follows audio'.asked chosen audio' := by
  obtain ⟨hasked, hdevice, -, hcases⟩ := startOutput_cases h
  rcases hcases with ⟨e, -, hsilent⟩ | ⟨output, queue, backend, -, houtput, hqueue, hvolume, hmuted,
    hopen⟩
  · exact hsilent.follows
  · rw [hasked]
    refine ⟨?_, fun _ => hsession, fun queue' h' => ?_, fun id output' hid h' => ?_⟩
    · rw [houtput, hqueue]
      exact iff_of_true rfl rfl
    · rw [hqueue] at h'
      cases h'
      exact ⟨hvolume, hmuted⟩
    · rw [houtput] at h'
      cases h'
      rw [hdevice] at hid
      rw [hid] at hopen
      obtain ⟨found, listed, hlist, hcarrier, hstart⟩ := openOutput_some hopen
      exact hopened id hid found listed output hlist hcarrier hstart

/-- Taking the status down stops an output that has failed, and does nothing else. -/
theorem snapshot_cases (h : audio.snapshot sound = (answer, audio')) :
    audio'.asked = audio.asked ∧ audio'.deviceId = audio.deviceId ∧
      audio'.devices = audio.devices ∧
      (Silent audio' ∧ answer.isOk = true ∨
        audio' = audio ∧ (answer.isOk = true ∨
          audio.output.isSome = true ∧ sound.status.isOk = false)) := by
  rw [DesktopAudio.snapshot] at h
  cases houtput : audio.output with
  | none =>
    simp only [houtput] at h
    cases h
    exact ⟨rfl, rfl, rfl, .inr ⟨rfl, .inl rfl⟩⟩
  | some output =>
    cases hstatus : sound.status with
    | error e =>
      simp only [houtput, hstatus] at h
      cases h
      exact ⟨rfl, rfl, rfl, .inr ⟨rfl, .inr ⟨rfl, rfl⟩⟩⟩
    | ok status =>
      simp only [houtput, hstatus] at h
      cases herror : status.lastError with
      | none =>
        simp only [herror] at h
        cases h
        exact ⟨rfl, rfl, rfl, .inr ⟨rfl, .inl rfl⟩⟩
      | some e =>
        simp only [herror] at h
        cases h
        exact ⟨rfl, rfl, rfl, .inl ⟨⟨rfl, rfl⟩, rfl⟩⟩

theorem Follows.failed {asked : Asked} (h : Follows asked chosen audio) (e : Failure) :
    Follows asked chosen (audio.failed e) :=
  ⟨h.attached, h.session, h.settings, h.device⟩

theorem Follows.snapshot (h : Follows audio.asked chosen audio)
    (hsnapshot : audio.snapshot sound = (answer, audio')) : Follows audio'.asked chosen audio' := by
  obtain ⟨hasked, -, -, ⟨hsilent, -⟩ | ⟨rfl, -⟩⟩ := snapshot_cases hsnapshot
  · exact hsilent.follows
  · exact h

theorem choose_cases {device : Option String} (hsilent : Silent audio)
    (h : audio.choose sound device = (result, audio')) :
    Silent audio' ∧ audio'.asked = audio.asked ∨
      audio.sessionActive = true ∧
        { audio with deviceId := device }.startOutput sound = (result, audio') := by
  rw [DesktopAudio.choose] at h
  by_cases hsession : audio.sessionActive
  · rw [if_pos hsession] at h
    exact .inr ⟨hsession, h⟩
  · rw [if_neg hsession] at h
    cases h
    exact .inl ⟨hsilent, rfl⟩

theorem accepts_of_listed {id : String} {found : List δ} {listed : List DesktopAudioDevice}
    (h : sound.listing.list = some (found, listed)) :
    sound.listing.accepts id = listed.any fun d => d.id = id && d.supported := by
  rw [Enumeration.accepts, h]
  rfl

/-- A switch leaves silence, or starts an output for a device that it accepts. -/
theorem setDevice_cases {device : Option String}
    (h : audio.setDevice sound device = (result, audio')) :
    Silent audio' ∧ audio'.asked = audio.asked ∨
      audio.sessionActive = true ∧ (∀ id, device = some id → sound.listing.accepts id = true) ∧
        ∃ ready : DesktopAudio δ, ready.asked = audio.asked ∧ ready.deviceId = device ∧
          ready.startOutput sound = (result, audio') := by
  cases device with
  | none =>
    rw [DesktopAudio.setDevice] at h
    rcases choose_cases (silent_stopOutput audio) h with hsilent | ⟨hsession, hstart⟩
    · exact .inl hsilent
    · refine .inr ⟨hsession, fun id hid => (nomatch hid), _, ?_, ?_, hstart⟩ <;> rfl
  | some id =>
    rcases hlook : audio.stopOutput.backend.devices sound.listing with ⟨looked, backend⟩
    simp only [DesktopAudio.setDevice, hlook] at h
    cases looked with
    | error e =>
      cases h
      exact .inl ⟨⟨rfl, rfl⟩, rfl⟩
    | ok devices =>
      obtain ⟨found, hlist, -⟩ := devices_ok hlook
      simp only at h
      split_ifs at h with hlisted
      · have hsilent : Silent { audio.stopOutput with backend, devices } := ⟨rfl, rfl⟩
        rcases choose_cases hsilent h with hleft | ⟨hsession, hstart⟩
        · exact .inl hleft
        · refine .inr ⟨hsession, fun id' hid => ?_, _, ?_, ?_, hstart⟩
          · cases hid
            rw [accepts_of_listed hlist]
            exact hlisted
          · rfl
          · rfl
      · cases h
        exact .inl ⟨⟨rfl, rfl⟩, rfl⟩

theorem asked_setDevice {device : Option String}
    (h : audio.setDevice sound device = (result, audio')) : audio'.asked = audio.asked := by
  rcases setDevice_cases h with ⟨-, hasked⟩ | ⟨-, -, ready, hready, -, hstart⟩
  · exact hasked
  · rw [(startOutput_cases hstart).1, hready]

theorem asked_act {action : AudioAction} (h : audio.act sound action = (result, audio')) :
    audio'.asked = audio.asked.step action := by
  cases action with
  | start =>
    rw [(startOutput_cases h).1]
    rfl
  | stop =>
    cases h
    rfl
  | status =>
    cases h
    rfl
  | list =>
    simp only [DesktopAudio.act] at h
    rcases hlook : audio.backend.devices sound.listing with ⟨looked, backend⟩
    rw [hlook] at h
    cases looked <;>
    · cases h
      rfl
  | volume volume =>
    simp only [DesktopAudio.act] at h
    have hok := setVolume_isOk (audio.playback.queue.getD .default) volume
    rcases hset : (audio.playback.queue.getD .default).setVolume volume with ⟨set, queue⟩
    rw [hset] at h hok
    rw [Asked.step, ← hok]
    cases set <;>
    · cases h
      rfl
  | muted muted =>
    cases h
    rfl
  | device device => exact asked_setDevice h

theorem follows_act {run : Run δ} {action : AudioAction}
    (hfollows : Follows run.audio.asked run.chosen run.audio) (hmeets : run.Meets action sound)
    (h : run.audio.act sound action = (result, audio')) :
    Follows audio'.asked (run.chosenBy sound action) audio' := by
  cases action with
  | start =>
    change { run.audio with sessionActive := true }.startOutput sound = _ at h
    refine follows_startOutput ?_ (fun id hid => ?_) h
    · rfl
    · exact hmeets.opened id hid
  | stop =>
    cases h
    exact (silent_stopOutput _).follows
  | status =>
    cases h
    exact hfollows
  | list =>
    simp only [DesktopAudio.act] at h
    rcases hlook : run.audio.backend.devices sound.listing with ⟨looked, backend⟩
    rw [hlook] at h
    cases looked <;>
    · cases h
      exact ⟨hfollows.attached, hfollows.session, hfollows.settings, hfollows.device⟩
  | volume volume =>
    simp only [DesktopAudio.act] at h
    rcases hset : (run.audio.playback.queue.getD .default).setVolume volume with ⟨set, queue⟩
    rw [hset] at h
    cases set with
    | error e =>
      cases h
      exact hfollows
    | ok u =>
      cases h
      refine ⟨?_, hfollows.session, fun queue' h' => ?_, hfollows.device⟩
      · simp only [Option.isSome_map]
        exact hfollows.attached
      · obtain ⟨attached, hattached, rfl⟩ := Option.map_eq_some_iff.mp h'
        rw [hattached, Option.getD_some] at hset
        rw [setVolume_ok hset]
        exact ⟨rfl, (hfollows.settings attached hattached).2⟩
  | muted muted =>
    cases h
    refine ⟨?_, hfollows.session, fun queue' h' => ?_, hfollows.device⟩
    · simp only [Option.isSome_map]
      exact hfollows.attached
    · obtain ⟨attached, hattached, rfl⟩ := Option.map_eq_some_iff.mp h'
      exact ⟨(hfollows.settings attached hattached).1, rfl⟩
  | device device =>
    rcases setDevice_cases h with ⟨hsilent, -⟩ | ⟨hsession, haccepts, ready, hready, hdevice, hstart⟩
    · exact hsilent.follows
    · have hsession' : ready.sessionActive = true := (congrArg Asked.session hready).trans hsession
      refine follows_startOutput hsession' (fun id hid => ?_) hstart
      rw [hdevice] at hid
      subst hid
      apply hmeets.opened id
      rw [Run.opens, haccepts id rfl, hsession]
      rfl

/-- **What a whole action leaves: the output follows, and a switch that fails leaves silence.** -/
theorem follows_apply {run : Run δ} {action : AudioAction}
    (hfollows : Follows run.audio.asked run.chosen run.audio) (hmeets : run.Meets action sound)
    (h : run.audio.apply sound action = (answer, audio')) :
    audio'.asked = run.audio.asked.step action ∧
      Follows audio'.asked (run.chosenBy sound action) audio' ∧
      (∀ device, action = .device device → answer.isOk = false → Silent audio') := by
  rw [DesktopAudio.apply] at h
  rcases hact : run.audio.act sound action with ⟨result, acted⟩
  have hasked := asked_act hact
  have hacted := follows_act hfollows hmeets hact
  simp only [hact] at h
  cases result with
  | error e =>
    cases h
    refine ⟨hasked, hacted.failed e, ?_⟩
    rintro device rfl -
    have hsilent : Silent acted := by
      rcases setDevice_cases hact with ⟨hsilent, -⟩ | ⟨-, -, ready, -, -, hstart⟩
      · exact hsilent
      · obtain ⟨-, -, -, ⟨e, -, hsilent⟩ | ⟨output, queue, backend, hok, -⟩⟩ :=
          startOutput_cases hstart
        · exact hsilent
        · cases hok
    exact hsilent
  | ok u =>
    rcases hsnapshot : acted.snapshot sound with ⟨taken, shot⟩
    obtain ⟨hsame, -, -, hcases⟩ := snapshot_cases hsnapshot
    have hshot := hacted.snapshot hsnapshot
    simp only [hsnapshot] at h
    cases taken with
    | ok status =>
      cases h
      exact ⟨hsame.trans hasked, hshot, fun device _ hanswer => (nomatch hanswer)⟩
    | error e =>
      cases h
      refine ⟨hsame.trans hasked, hshot.failed e, ?_⟩
      rintro device rfl -
      -- a status that fails is one of an output, and that output has been started by the switch
      obtain ⟨-, hok⟩ | ⟨-, hok | ⟨houtput, hstatus⟩⟩ := hcases
      · cases hok
      · cases hok
      · rcases setDevice_cases hact with ⟨⟨hnone, -⟩, -⟩ | ⟨hsession, -⟩
        · rw [hnone] at houtput
          cases houtput
        · rw [hmeets.status device rfl hsession] at hstatus
          cases hstatus

end Action

/-! ### A run -/

theorem follows_run {steps : List (Step δ)}
    (hmeets : ∀ before action sound after, steps = before ++ (action, sound) :: after →
      (Run.after before).Meets action sound) :
    (Run.after steps).audio.asked = asked steps ∧
      Follows (asked steps) (Run.after steps).chosen (Run.after steps).audio := by
  induction steps using List.reverseRecOn with
  | nil => exact ⟨rfl, Silent.follows ⟨rfl, rfl⟩⟩
  | append_singleton steps step ih =>
    obtain ⟨action, sound⟩ := step
    obtain ⟨hasked, hfollows⟩ := ih fun before action' sound' after h =>
      hmeets before action' sound' (after ++ [(action, sound)]) (by simp [h])
    rw [← hasked] at hfollows
    obtain ⟨hasked', hfollows', -⟩ := follows_apply hfollows (hmeets steps action sound [] rfl) rfl
    have hstep : asked (steps ++ [(action, sound)]) = (asked steps).step action := by
      rw [asked, List.map_append, List.foldl_append]
      rfl
    rw [Run.after, List.foldl_append, hstep, ← hasked]
    rw [hasked'] at hfollows'
    exact ⟨hasked', hfollows'⟩

/-- **Runs of actions: the output follows what has been asked for and chosen, and a switch that
fails leaves silence.** -/
theorem output_follows_choice (steps : List (Step δ))
    (hmeets : ∀ before action sound after, steps = before ++ (action, sound) :: after →
      (Run.after before).Meets action sound) :
    Follows (asked steps) (Run.after steps).chosen (Run.after steps).audio ∧
      ∀ before device sound after, steps = before ++ (.device device, sound) :: after →
        ((Run.after before).audio.apply sound (.device device)).1.isOk = false →
          Silent (Run.after (before ++ [(.device device, sound)])).audio := by
  refine ⟨(follows_run hmeets).2, fun before device sound after hsplit hfailed => ?_⟩
  obtain ⟨hasked, hfollows⟩ := @follows_run δ before fun before' action sound' after' h =>
    hmeets before' action sound' (after' ++ (.device device, sound) :: after) (by simp [hsplit, h])
  rw [← hasked] at hfollows
  obtain ⟨-, -, hsilent⟩ := follows_apply hfollows (hmeets before _ sound after hsplit) rfl
  rw [Run.after, List.foldl_append]
  exact hsilent device rfl hfailed

/-! ### Headphones -/

/-- These devices are there, and all of them work. -/
def plugged (devices : List String) : Sound String where
  listing := ⟨.ok devices, .ok, fun _ => .ok true⟩
  opening := ⟨.ok devices, .ok, fun _ => .ok true⟩
  defaultOutputDevice := devices.head?
  supportsPcm := fun _ => .ok true
  play := fun _ => .ok ()
  status := .ok ⟨0, none⟩

/-- The devices are listed, and the headphones are chosen. -/
def headphones (before after : List String) : List (Step String) :=
  [(.start, plugged before), (.list, plugged before), (.device (some "output-1"), plugged after)]

theorem headphones_meet :
    ∀ before action sound after,
      headphones ["speakers", "headphones"] ["speakers", "headphones"] =
          before ++ (action, sound) :: after →
        (Run.after before).Meets action sound := by
  intro before action sound after hsplit
  match before, hsplit with
  | [], hsplit =>
    cases hsplit
    exact ⟨fun id hid => (nomatch hid), fun device hdevice => (nomatch hdevice)⟩
  | [_], hsplit =>
    cases hsplit
    exact ⟨fun id hid => (nomatch hid), fun device hdevice => (nomatch hdevice)⟩
  | [_, _], hsplit =>
    cases hsplit
    refine ⟨fun id hid found listed device hlist hcarrier _ => ?_, fun device _ _ => rfl⟩
    obtain ⟨hfound, -⟩ := list_eq_some.mp hlist
    cases hfound
    cases hid
    rw [← hcarrier]
    decide
  | _ :: _ :: _ :: before, hsplit => simp [headphones] at hsplit

theorem output_follows_choice_headphones :
    Follows ⟨1.0, false, true⟩ (some "headphones")
        (Run.after (headphones ["speakers", "headphones"] ["speakers", "headphones"])).audio ∧
      (Run.after (headphones ["speakers", "headphones"] ["speakers", "headphones"])).audio.output =
        some "headphones" :=
  ⟨(output_follows_choice _ headphones_meet).1, by decide⟩

/-- Another device is plugged in after the listing, and the speakers play.  A switch whose output
cannot tell its status fails, and plays on. -/
theorem speakers_played :
    (Run.after (headphones ["speakers", "headphones"] ["hdmi", "speakers", "headphones"])).chosen =
        some "headphones" ∧
      (Run.after (headphones ["speakers", "headphones"]
        ["hdmi", "speakers", "headphones"])).audio.output = some "speakers" ∧
      ((Run.after [(.start, plugged ["speakers"])]).audio.apply
        { plugged ["speakers"] with status := .error "audio queue lock was poisoned" }
          (.device none)).1.isOk = false ∧
      ((Run.after [(.start, plugged ["speakers"])]).audio.apply
        { plugged ["speakers"] with status := .error "audio queue lock was poisoned" }
          (.device none)).2.output = some "speakers" := by
  decide

end MahoRD.AudioOutput
