/-
MahoRD/Video/Delivery.lean

Video from the encoder to the decoder: the host's sender, the network, and the
client's reassembly and queue.

The network may lose, reorder and duplicate packets: `receive` takes any packet
that was sent before, any number of times.  (The datagram channel below it
delivers each packet at most once; `DatagramChannel.channel_safe`.)

`produced` lists every frame given to `send_frame`, `accepted` those it gave an
id to; `delivered` lists what the queue handed to the decoder, newest first.
-/
import MahoRD.App.FrameQueue
import MahoRD.Host.VideoSender
import MahoRD.Lib.Machine

namespace MahoRD.Delivery

structure State where
  sender : UdpSender
  packets : List Packet
  produced : List VideoFrame
  accepted : List VideoFrame
  assembler : FrameAssembler
  queue : FrameQueue
  delivered : List AssembledFrame

def init : State := ⟨.new, [], [], [], .new, .new, []⟩

inductive Action
  | sendFrame (frame : VideoFrame) (width height : UInt32) (sessionOrigin sendAt : ℕ)
      (send : ℕ → Option UInt32)
  | receive (packet : Packet) (now : ℕ)
  | recvTimeout
  | decodeFailed
  | stop

/-- A completed frame goes to the queue. -/
def enqueue (s : State) (now : ℕ) :
    Except MediaAssemblyError (Option AssembledFrame) × FrameAssembler → State
  | (.ok (some frame), assembler) =>
    { s with assembler, queue := (s.queue.push (frame, now)).2 }
  | (.ok none, assembler) | (.error _, assembler) => { s with assembler }

/-- The media packets of the client's `handle_packet`. -/
def handlePacket (s : State) (packet : Packet) (now : ℕ) : State :=
  match packet.header.packetType with
  | .frameHeader =>
    match FrameHeader.decode packet.payload with
    | .error _ => s
    | .ok header =>
      enqueue s now (s.assembler.pushHeader header packet.header.timestampMs now)
  | .frameChunk =>
    match FrameChunk.decode packet.payload with
    | .error _ => s
    | .ok chunk => enqueue s now (s.assembler.pushChunk chunk now)
  | _ => s

def step (s : State) : Action → Option State
  | .sendFrame frame width height sessionOrigin sendAt send =>
    let accepted :=
      match s.sender.frameHeader width height frame with
      | .error _ => s.accepted
      | .ok _ => s.accepted ++ [frame]
    match s.sender.sendFrame width height frame sessionOrigin sendAt send with
    | (_, sender, out) =>
      some { s with
        sender, accepted, packets := s.packets ++ out, produced := s.produced ++ [frame] }
  | .receive packet now => if packet ∈ s.packets then some (handlePacket s packet now) else none
  | .recvTimeout =>
    match s.queue.recvTimeout with
    | (.ok frame, queue) => some { s with queue, delivered := frame.1 :: s.delivered }
    | (.error _, queue) => some { s with queue }
  | .decodeFailed => some { s with queue := s.queue.decodeFailed.2 }
  | .stop => some { s with queue := s.queue.stop }

/-! ### What was sent -/

/-- The header of an accepted frame; the ids count from one. -/
def SentHeader (accepted : List VideoFrame) (h : FrameHeader) : Prop :=
  ∃ i v, accepted[i]? = some v ∧ h.frameId = UInt32.ofNat (i + 1) ∧
    h.isKeyFrame = v.isKeyFrame ∧
    h.totalChunks.toNat = (Chunks.chunks senderMaxVideoChunkBytes v.data).length

/-- A chunk of an accepted frame. -/
def SentChunk (accepted : List VideoFrame) (c : FrameChunk) : Prop :=
  ∃ i v j, accepted[i]? = some v ∧ c.frameId = UInt32.ofNat (i + 1) ∧
    (Chunks.chunks senderMaxVideoChunkBytes v.data)[j]? = some c.data ∧
    c.chunkIndex = UInt16.ofNat j ∧ j < 2 ^ 16

/-- A media packet carries a header or a chunk of an accepted frame. -/
def SentPacket (accepted : List VideoFrame) (p : Packet) : Prop :=
  (p.header.packetType = .frameHeader →
    ∃ h, FrameHeader.decode p.payload = .ok h ∧ SentHeader accepted h) ∧
  (p.header.packetType = .frameChunk →
    ∃ c : FrameChunk, p.payload = c.toBytes ∧ SentChunk accepted c)

theorem getElem?_append_of_eq_some {l more : List VideoFrame} {i : ℕ} {v : VideoFrame}
    (h : l[i]? = some v) : (l ++ more)[i]? = some v := by
  obtain ⟨hlt, -⟩ := List.getElem?_eq_some_iff.mp h
  rw [List.getElem?_append_left hlt, h]

theorem SentHeader.append (more : List VideoFrame) {accepted : List VideoFrame} (h : FrameHeader)
    (hs : SentHeader accepted h) : SentHeader (accepted ++ more) h := by
  obtain ⟨i, v, hv, hrest⟩ := hs
  exact ⟨i, v, getElem?_append_of_eq_some hv, hrest⟩

theorem SentChunk.append (more : List VideoFrame) {accepted : List VideoFrame} (c : FrameChunk)
    (hs : SentChunk accepted c) : SentChunk (accepted ++ more) c := by
  obtain ⟨i, v, j, hv, hrest⟩ := hs
  exact ⟨i, v, j, getElem?_append_of_eq_some hv, hrest⟩

theorem SentPacket.append (more : List VideoFrame) {accepted : List VideoFrame} {p : Packet}
    (hs : SentPacket accepted p) : SentPacket (accepted ++ more) p := by
  refine ⟨fun ht => ?_, fun ht => ?_⟩
  · obtain ⟨h, hdec, hsent⟩ := hs.1 ht
    exact ⟨h, hdec, hsent.append more⟩
  · obtain ⟨c, hpay, hsent⟩ := hs.2 ht
    exact ⟨c, hpay, hsent.append more⟩

theorem sentPacket_of_accepted {s : UdpSender} {accepted : List VideoFrame}
    (hid : s.frameId = UInt32.ofNat accepted.length) {width height : UInt32} {frame : VideoFrame}
    {header : FrameHeader} {encodedHeader : List UInt8}
    (h : s.frameHeader width height frame = .ok (header, encodedHeader))
    (sessionOrigin sendAt : ℕ) (send : ℕ → Option UInt32) :
    ∀ p ∈ (s.sendFrame width height frame sessionOrigin sendAt send).2.2,
      SentPacket (accepted ++ [frame]) p := by
  obtain ⟨hdec, hframeId, hkey, hchunks, -⟩ := UdpSender.frameHeader_spec h
  obtain ⟨-, hpackets⟩ := UdpSender.sendFrame_accepted h sessionOrigin sendAt send
  have hnth : (accepted ++ [frame])[accepted.length]? = some frame := by simp
  have hnext : header.frameId = UInt32.ofNat (accepted.length + 1) := by
    rw [hframeId, hid, UInt32.ofNat_add]
    rfl
  intro p hp
  rcases hpackets p hp with ⟨ht, hpay⟩ | ⟨ht, j, bytes, hj, hpay⟩ | ht
  · refine ⟨fun _ => ⟨header, by rw [hpay, hdec], accepted.length, frame, hnth, hnext, hkey,
      hchunks⟩, by simp [ht]⟩
  · have hlt : j < 2 ^ 16 := by
      obtain ⟨hlt, -⟩ := List.getElem?_eq_some_iff.mp hj
      exact (hchunks ▸ hlt).trans header.totalChunks.toNat_lt
    exact ⟨by simp [ht], fun _ => ⟨_, hpay, accepted.length, frame, j, hnth, hnext, hj, rfl, hlt⟩⟩
  · exact ⟨by simp [ht], by simp [ht]⟩

/-! ### The invariant -/

/-- A frame assembled from what was sent. -/
abbrev Genuine (accepted : List VideoFrame) : AssembledFrame → Prop :=
  FrameAssembler.Assembled (SentHeader accepted) (SentChunk accepted)

structure Inv (s : State) : Prop where
  frameId : s.sender.frameId = UInt32.ofNat s.accepted.length
  packets : ∀ p ∈ s.packets, SentPacket s.accepted p
  assembler : s.assembler.Holds (SentHeader s.accepted) (SentChunk s.accepted)
  queued : ∀ f ∈ s.queue.frames, Genuine s.accepted f.1
  delivered : ∀ f ∈ s.delivered, Genuine s.accepted f
  queue : s.queue.Inv s.delivered
  accepted : s.accepted.Sublist s.produced

theorem inv_init : Inv init where
  frameId := rfl
  packets := by simp [init]
  assembler := FrameAssembler.holds_new
  queued := by simp [init, FrameQueue.new]
  delivered := by simp [init]
  queue := FrameQueue.inv_new
  accepted := List.Sublist.refl _

variable {s : State}

theorem inv_refused (h : Inv s) (frame : VideoFrame) :
    Inv { s with produced := s.produced ++ [frame] } :=
  { h with accepted := h.accepted.trans (List.sublist_append_left _ _) }

theorem inv_accepted (h : Inv s) {frame : VideoFrame} {sender : UdpSender}
    {out : List Packet} (hid : sender.frameId = s.sender.frameId + 1)
    (hout : ∀ p ∈ out, SentPacket (s.accepted ++ [frame]) p) :
    Inv { s with
      sender, accepted := s.accepted ++ [frame], packets := s.packets ++ out,
      produced := s.produced ++ [frame] } where
  frameId := by
    rw [hid, h.frameId, List.length_append, UInt32.ofNat_add]
    rfl
  packets p hp := by
    rcases List.mem_append.mp hp with hold | hnew
    · exact (h.packets p hold).append _
    · exact hout p hnew
  assembler := h.assembler.mono (SentHeader.append _) (SentChunk.append _)
  queued f hf := (h.queued f hf).mono (SentHeader.append _) (SentChunk.append _)
  delivered f hf := (h.delivered f hf).mono (SentHeader.append _) (SentChunk.append _)
  queue := h.queue
  accepted := h.accepted.append (List.Sublist.refl _)

theorem inv_enqueue (h : Inv s) (now : ℕ)
    {r : Except MediaAssemblyError (Option AssembledFrame) × FrameAssembler}
    (hr : FrameAssembler.Ensures (SentHeader s.accepted) (SentChunk s.accepted) r) :
    Inv (enqueue s now r) := by
  obtain ⟨hassembler, hframe⟩ := hr
  rcases r with ⟨e | - | frame, assembler⟩
  · exact { h with assembler := hassembler }
  · exact { h with assembler := hassembler }
  · refine { h with assembler := hassembler, queued := ?_, queue := ?_ }
    · intro g hg
      rcases FrameQueue.mem_push hg with rfl | hold
      · exact hframe frame rfl
      · exact h.queued g hold
    · exact FrameQueue.inv_push h.queue _

theorem inv_handlePacket (h : Inv s) {p : Packet} (hp : SentPacket s.accepted p)
    (now : ℕ) : Inv (handlePacket s p now) := by
  unfold handlePacket
  split
  next ht =>
    obtain ⟨header, hdec, hsent⟩ := hp.1 ht
    rw [hdec]
    exact inv_enqueue h now (h.assembler.pushHeader hsent _ now)
  next ht =>
    obtain ⟨chunk, hpay, hsent⟩ := hp.2 ht
    split
    · exact h
    next chunk' hdec =>
      rw [hpay] at hdec
      obtain rfl := FrameChunk.decode_toBytes hdec
      exact inv_enqueue h now (h.assembler.pushChunk hsent now)
  · exact h

theorem inv_step {s' : State} {a : Action} (h : Inv s) (hs : step s a = some s') : Inv s' := by
  cases a with
  | sendFrame frame width height sessionOrigin sendAt send =>
    rcases hhead : s.sender.frameHeader width height frame with e | ⟨header, encodedHeader⟩
    · simp only [step, hhead, UdpSender.sendFrame_refused hhead, List.append_nil,
        Option.some.injEq] at hs
      exact hs ▸ inv_refused h frame
    · simp only [step, hhead, Option.some.injEq] at hs
      subst hs
      obtain ⟨hid, -⟩ := UdpSender.sendFrame_accepted hhead sessionOrigin sendAt send
      refine inv_accepted h ?_ (sentPacket_of_accepted h.frameId hhead sessionOrigin sendAt send)
      rw [hid, (UdpSender.frameHeader_spec hhead).2.1]
  | receive packet now =>
    simp only [step, Option.ite_none_right_eq_some, Option.some.injEq] at hs
    obtain ⟨hmem, rfl⟩ := hs
    exact inv_handlePacket h (h.packets packet hmem) now
  | recvTimeout =>
    rcases hr : s.queue.recvTimeout with ⟨e | frame, queue⟩
    · have hq : queue = s.queue := by
        unfold FrameQueue.recvTimeout at hr
        split at hr
        · cases hr; rfl
        · split at hr
          · cases hr; rfl
          · cases hr
      simp only [step, hr, Option.some.injEq, hq] at hs
      exact hs ▸ h
    · simp only [step, hr, Option.some.injEq] at hs
      subst hs
      have hframes := (FrameQueue.recvTimeout_ok hr).2.1
      refine { h with queued := ?_, delivered := ?_, queue := FrameQueue.inv_recvTimeout h.queue hr }
      · intro f hf
        exact h.queued f (hframes ▸ List.mem_cons_of_mem _ hf)
      · intro f hf
        rcases List.mem_cons.mp hf with rfl | hf
        · exact h.queued frame (hframes ▸ List.mem_cons_self)
        · exact h.delivered f hf
  | decodeFailed =>
    obtain rfl := Option.some.inj hs
    exact { h with
      queued := fun f hf => h.queued f (FrameQueue.mem_decodeFailed hf)
      queue := FrameQueue.inv_decodeFailed h.queue }
  | stop =>
    obtain rfl := Option.some.inj hs
    exact { h with
      queued := by simp [FrameQueue.stop]
      queue := FrameQueue.inv_stop h.queue }

theorem inv_run {actions : List Action}
    (h : Machine.run step init actions = some s) : Inv s :=
  Machine.run_inv (fun hi hs => inv_step hi hs) inv_init h

/-! ### No undetected gap -/

/-- `f` carries the frame `v`. -/
def Carries (f : AssembledFrame) (v : VideoFrame) : Prop :=
  f.data = v.data ∧ f.header.isKeyFrame = v.isKeyFrame

/-- Each delivered frame that is not a key frame follows, in `frames`, right
after the one delivered before it. -/
def Gapless (frames : List VideoFrame) (delivered : List AssembledFrame) : Prop :=
  delivered.IsChain fun g f => g.header.isKeyFrame = false →
    ∃ i v w, frames[i]? = some v ∧ frames[i + 1]? = some w ∧ Carries f v ∧ Carries g w

theorem eq_of_ofNat_eq {a b : ℕ} (ha : a < 2 ^ 32) (hb : b < 2 ^ 32)
    (h : UInt32.ofNat a = UInt32.ofNat b) : a = b := by
  have := congrArg UInt32.toNat h
  rwa [UInt32.toNat_ofNat', UInt32.toNat_ofNat', Nat.mod_eq_of_lt ha, Nat.mod_eq_of_lt hb] at this

/-- While the ids have not wrapped, an assembled frame is one accepted frame,
byte for byte. -/
theorem Genuine.carries {accepted : List VideoFrame} (hlen : accepted.length < 2 ^ 32)
    {f : AssembledFrame} (h : Genuine accepted f) :
    ∃ i v, accepted[i]? = some v ∧ f.header.frameId = UInt32.ofNat (i + 1) ∧ Carries f v := by
  obtain ⟨⟨i, v, hv, hid, hkey, hcount⟩, pieces, hdata, hpieces⟩ := h
  have hbound : ∀ {k w}, accepted[k]? = some w → k + 1 < 2 ^ 32 := by
    intro k w hk
    obtain ⟨hlt, -⟩ := List.getElem?_eq_some_iff.mp hk
    omega
  refine ⟨i, v, hv, hid, ?_, hkey⟩
  have hlenEq := hpieces.length_eq
  rw [List.length_map, List.length_range] at hlenEq
  have hsame : pieces = Chunks.chunks senderMaxVideoChunkBytes v.data := by
    refine List.ext_getElem (by rw [← hlenEq, hcount]) fun j hj hj' => ?_
    have hj16 : j < 2 ^ 16 := lt_of_lt_of_le (hlenEq ▸ hj) f.header.totalChunks.toNat_lt.le
    -- the piece at `j` is a sent chunk of index `j` under this id
    obtain ⟨k, w, j', hw, hkid, hpiece, hindex, hj'16⟩ :=
      (List.forall₂_iff_get.mp hpieces).2 j (by simpa [hlenEq] using hj) hj
    have hki : k = i := by
      have := eq_of_ofNat_eq (hbound hw) (hbound hv) (hkid.symm.trans hid)
      omega
    have hjj : j' = j := by
      have hmod : j' % 2 ^ 16 = j % 2 ^ 16 := by
        simpa using (congrArg UInt16.toNat hindex).symm
      rwa [Nat.mod_eq_of_lt hj16, Nat.mod_eq_of_lt hj'16] at hmod
    rw [hki, hv] at hw
    obtain rfl := Option.some.inj hw
    rw [hjj, List.getElem?_eq_getElem hj'] at hpiece
    exact (Option.some.inj hpiece).symm
  rw [hdata, hsame, Chunks.flatten_chunks (by decide)]

/-- **No gap goes undetected among the accepted frames.**  Whatever the network
loses, reorders or repeats, and whichever sends and decodes fail: as long as
fewer than 2³² frames were accepted, every delivered frame is an accepted one,
byte for byte, and one that is not a key frame is the accepted frame right
after the one delivered before it. -/
theorem delivered_gapless {s : State} {actions : List Action}
    (h : Machine.run step init actions = some s) (hlen : s.accepted.length < 2 ^ 32) :
    Gapless s.accepted s.delivered ∧ s.accepted.Sublist s.produced ∧
      ∀ f ∈ s.delivered, ∃ v ∈ s.accepted, Carries f v := by
  have hi := inv_run h
  refine ⟨?_, hi.accepted, fun f hf => ?_⟩
  · refine List.IsChain.imp_of_mem_imp (fun g f hg hf hfollows hkey => ?_) hi.queue.delivered_chain
    obtain ⟨i, v, hv, hfid, hcf⟩ := (hi.delivered f hf).carries hlen
    obtain ⟨j, w, hw, hgid, hcg⟩ := (hi.delivered g hg).carries hlen
    have hsucc : g.header.frameId = f.header.frameId + 1 := by
      rcases hfollows with hk | hs
      · rw [hk] at hkey
        cases hkey
      · exact hs
    obtain ⟨hilt, -⟩ := List.getElem?_eq_some_iff.mp hv
    obtain ⟨hjlt, -⟩ := List.getElem?_eq_some_iff.mp hw
    have hij : (j + 1) % 2 ^ 32 = (i + 1 + 1) % 2 ^ 32 := by
      have := congrArg UInt32.toNat hsucc
      rw [hgid, hfid] at this
      simpa using this
    have hji : j = i + 1 := by omega
    exact ⟨i, v, w, hv, hji ▸ hw, hcf, hcg⟩
  · obtain ⟨i, v, hv, -, hc⟩ := (hi.delivered f hf).carries hlen
    exact ⟨v, List.mem_of_getElem? hv, hc⟩

def keyFrame : VideoFrame := ⟨[1], true, 0, 0, 0⟩

def dependentFrame : VideoFrame := ⟨[2], false, 0, 0, 0⟩

/-- Every packet goes out. -/
def sendAll : ℕ → Option UInt32 := fun _ => some 0

def sendKey : Action := .sendFrame keyFrame 1 1 0 0 sendAll

/-- The dependent frame is sent, all packets arrive in order, and the decoder
takes both frames. -/
def deliverBoth : List Action :=
  [.sendFrame dependentFrame 1 1 0 0 sendAll,
    .receive ⟨⟨.frameHeader, 1, 0, 0⟩, FrameHeader.toBytes ⟨1, 1, 1, true, 1, 1⟩⟩ 0,
    .receive ⟨⟨.frameChunk, 2, 0, 0⟩, FrameChunk.toBytes ⟨1, 0, [1]⟩⟩ 0,
    .receive ⟨⟨.frameHeader, 4, 0, 0⟩, FrameHeader.toBytes ⟨2, 1, 1, false, 1, 1⟩⟩ 0,
    .receive ⟨⟨.frameChunk, 5, 0, 0⟩, FrameChunk.toBytes ⟨2, 0, [2]⟩⟩ 0,
    .recvTimeout, .recvTimeout]

def deliveredKey : AssembledFrame := ⟨⟨1, 1, 1, true, 1, 1⟩, [1], 0⟩

def deliveredDependent : AssembledFrame := ⟨⟨2, 1, 1, false, 1, 1⟩, [2], 0⟩

/-- The two frames of this run, delivered one after the other. -/
theorem delivered_gapless_deliverBoth :
    ∃ s, Machine.run step init (sendKey :: deliverBoth) = some s ∧
      s.delivered = [deliveredDependent, deliveredKey] ∧ Gapless s.accepted s.delivered := by
  have hall : (Machine.run step init (sendKey :: deliverBoth)).map
      (fun s => (s.delivered, s.accepted))
      = some ([deliveredDependent, deliveredKey], [keyFrame, dependentFrame]) := by
    decide
  obtain ⟨s, hs, hlogs⟩ := Option.map_eq_some_iff.mp hall
  simp only [Prod.mk.injEq] at hlogs
  exact ⟨s, hs, hlogs.1, (delivered_gapless hs (by rw [hlogs.2]; decide)).1⟩

/-! ### Refused frames and wrapped ids

Among the frames the encoder *produced* there can be a gap: a refused frame
takes no id, and after 2³² ids the next one looks like a successor. -/

/-- The logs `produced` and `accepted` only record: a run goes the same way
whatever they held before. -/
theorem run_relog {s' : State} {actions : List Action}
    (h : Machine.run step s actions = some s') :
    ∃ d e, s'.produced = s.produced ++ d ∧ s'.accepted = s.accepted ++ e ∧
      ∀ l m, Machine.run step { s with produced := l, accepted := m } actions
        = some { s' with produced := l ++ d, accepted := m ++ e } := by
  have hhandle : ∀ (s : State) p now l m,
      handlePacket { s with produced := l, accepted := m } p now
        = { handlePacket s p now with produced := l, accepted := m } ∧
      (handlePacket s p now).produced = s.produced ∧
      (handlePacket s p now).accepted = s.accepted := by
    intro s p now l m
    have henqueue : ∀ r, enqueue { s with produced := l, accepted := m } now r
          = { enqueue s now r with produced := l, accepted := m } ∧
        (enqueue s now r).produced = s.produced ∧ (enqueue s now r).accepted = s.accepted := by
      rintro ⟨e | - | frame, assembler⟩ <;> exact ⟨rfl, rfl, rfl⟩
    unfold handlePacket
    split
    · split
      · exact ⟨rfl, rfl, rfl⟩
      · exact henqueue _
    · split
      · exact ⟨rfl, rfl, rfl⟩
      · exact henqueue _
    · exact ⟨rfl, rfl, rfl⟩
  have hstep : ∀ {s s' : State} {a : Action}, step s a = some s' →
      ∃ d e, s'.produced = s.produced ++ d ∧ s'.accepted = s.accepted ++ e ∧
        ∀ l m, step { s with produced := l, accepted := m } a
          = some { s' with produced := l ++ d, accepted := m ++ e } := by
    intro s s' a hs
    cases a with
    | sendFrame frame width height sessionOrigin sendAt send =>
      rcases hhead : s.sender.frameHeader width height frame with e | ⟨header, encodedHeader⟩
      · simp only [step, hhead, Option.some.injEq] at hs
        subst hs
        exact ⟨[frame], [], rfl, (List.append_nil _).symm, fun l m => by simp [step, hhead]⟩
      · simp only [step, hhead, Option.some.injEq] at hs
        subst hs
        exact ⟨[frame], [frame], rfl, rfl, fun l m => by simp [step, hhead]⟩
    | receive packet now =>
      simp only [step, Option.ite_none_right_eq_some, Option.some.injEq] at hs
      obtain ⟨hmem, rfl⟩ := hs
      refine ⟨[], [], ?_, ?_, fun l m => ?_⟩
      · rw [(hhandle s packet now [] []).2.1, List.append_nil]
      · rw [(hhandle s packet now [] []).2.2, List.append_nil]
      · simp [step, hmem, (hhandle s packet now l m).1]
    | recvTimeout =>
      rcases hr : s.queue.recvTimeout with ⟨e | frame, queue⟩ <;>
      · simp only [step, hr, Option.some.injEq] at hs
        subst hs
        exact ⟨[], [], by simp, by simp, fun l m => by simp [step, hr]⟩
    | decodeFailed | stop =>
      obtain rfl := Option.some.inj hs
      exact ⟨[], [], by simp, by simp, fun l m => by simp [step]⟩
  induction actions generalizing s with
  | nil =>
    obtain rfl := Option.some.inj h
    exact ⟨[], [], by simp, by simp, fun l m => by simp⟩
  | cons a actions ih =>
    obtain ⟨t, ht, hrest⟩ := Machine.run_cons_eq_some.mp h
    obtain ⟨d, e, hd, he, hlog⟩ := hstep ht
    obtain ⟨d', e', hd', he', hlog'⟩ := ih hrest
    refine ⟨d ++ d', e ++ e', by rw [hd', hd, List.append_assoc],
      by rw [he', he, List.append_assoc], fun l m => ?_⟩
    rw [Machine.run_cons_eq_some]
    exact ⟨_, hlog l m, by rw [hlog', List.append_assoc, List.append_assoc]⟩

/-- One byte more than 8192 chunks can carry. -/
def oversizedFrame : VideoFrame := ⟨List.replicate (8192 * 1154 + 1) 0, false, 0, 0, 0⟩

def lostFrame : VideoFrame := ⟨[3], false, 0, 0, 0⟩

/-- The socket fails. -/
def sendNone : ℕ → Option UInt32 := fun _ => none

/-- The state after the key frame, and how the rest of the run goes from it
with whatever the logs hold by then. -/
theorem run_deliverBoth : ∃ s, step init sendKey = some s ∧ s.produced = [keyFrame] ∧
    s.accepted = [keyFrame] ∧ ∀ l m, ∃ s',
      Machine.run step { s with produced := l, accepted := m } deliverBoth = some s' ∧
        s'.produced = l ++ [dependentFrame] ∧ s'.accepted = m ++ [dependentFrame] ∧
        s'.delivered = [deliveredDependent, deliveredKey] := by
  have hall : (Machine.run step init (sendKey :: deliverBoth)).map
      (fun s => (s.delivered, s.produced, s.accepted))
      = some ([deliveredDependent, deliveredKey], [keyFrame, dependentFrame],
          [keyFrame, dependentFrame]) := by decide
  have hkey : (step init sendKey).map (fun s => (s.produced, s.accepted))
      = some ([keyFrame], [keyFrame]) := by decide
  obtain ⟨t, ht, hlogs⟩ := Option.map_eq_some_iff.mp hall
  obtain ⟨s, hs, hrest⟩ := Machine.run_cons_eq_some.mp ht
  rw [hs, Option.map_some, Option.some.injEq, Prod.mk.injEq] at hkey
  simp only [Prod.mk.injEq] at hlogs
  obtain ⟨d, e, hd, he, hlog⟩ := run_relog hrest
  rw [hlogs.2.1, hkey.1] at hd
  rw [hlogs.2.2, hkey.2] at he
  obtain rfl : d = [dependentFrame] := by simpa using hd.symm
  obtain rfl : e = [dependentFrame] := by simpa using he.symm
  exact ⟨s, hs, hkey.1, hkey.2, fun l m => ⟨_, hlog l m, rfl, rfl, hlogs.1⟩⟩

theorem step_refused {frame : VideoFrame} {width height : UInt32} {e : SendError}
    (he : s.sender.frameHeader width height frame = .error e) (sessionOrigin sendAt : ℕ)
    (send : ℕ → Option UInt32) :
    step s (.sendFrame frame width height sessionOrigin sendAt send)
      = some { s with produced := s.produced ++ [frame] } := by
  simp [step, he, UdpSender.sendFrame_refused he]

theorem frameHeader_oversized (s : UdpSender) :
    ∃ e, s.frameHeader 1 1 oversizedFrame = .error e := by
  refine UdpSender.frameHeader_refused s 1 1 ?_
  simp only [oversizedFrame, List.length_replicate]
  decide

theorem frameHeader_lost (s : UdpSender) : ∃ r, s.frameHeader 1 1 lostFrame = .ok r := by
  simp [UdpSender.frameHeader, lostFrame, Chunks.count, senderMaxVideoChunkBytes,
    FrameHeader.encode, FrameHeader.validate, maxChunksPerFrame, maxFrameBytes,
    maxVideoChunkBytes, bind, Except.bind, pure, Except.pure]

theorem run_lost (n : ℕ) (s : State) :
    Machine.run step s (List.replicate n (.sendFrame lostFrame 1 1 0 0 sendNone))
      = some { s with
          sender := ⟨s.sender.sequence + UInt32.ofNat n, s.sender.frameId + UInt32.ofNat n⟩
          produced := s.produced ++ List.replicate n lostFrame
          accepted := s.accepted ++ List.replicate n lostFrame } := by
  induction n generalizing s with
  | zero => simp
  | succ n ih =>
    have hstep : step s (.sendFrame lostFrame 1 1 0 0 sendNone)
        = some { s with
            sender := ⟨s.sender.sequence + 1, s.sender.frameId + 1⟩
            produced := s.produced ++ [lostFrame], accepted := s.accepted ++ [lostFrame] } := by
      obtain ⟨⟨header, encodedHeader⟩, hhead⟩ := frameHeader_lost s.sender
      have hid := (UdpSender.frameHeader_spec hhead).2.1
      simp [step, hhead, UdpSender.sendFrame, UdpSender.sendPacket, sendNone, hid]
    rw [List.replicate_succ, Machine.run_cons_eq_some]
    refine ⟨_, hstep, ?_⟩
    rw [ih]
    simp [UInt32.ofNat_add, List.replicate_succ, UInt32.add_assoc, UInt32.add_comm]

theorem not_gapless (between : List VideoFrame) (hne : between ≠ [])
    (hbetween : ∀ v ∈ between, v.data ≠ [1] ∧ v.data ≠ [2]) :
    ¬ Gapless (keyFrame :: between ++ [dependentFrame]) [deliveredDependent, deliveredKey] := by
  intro h
  obtain ⟨i, v, w, hv, hw, ⟨hdv, -⟩, ⟨hdw, -⟩⟩ := (List.isChain_cons.mp h).1 deliveredKey rfl rfl
  obtain ⟨first, rest, rfl⟩ := List.exists_cons_of_ne_nil hne
  rcases i with - | i
  · have hfirst : first = w := by simpa using hw
    exact (hbetween first (by simp)).2 (hfirst ▸ hdw.symm)
  · have hmem : v ∈ first :: rest ++ [dependentFrame] := List.mem_of_getElem? (by simpa using hv)
    rcases List.mem_append.mp hmem with hin | hin
    · exact (hbetween v hin).1 hdv.symm
    · obtain rfl := List.mem_singleton.mp hin
      exact absurd hdv (by decide)

/-- The decoder can be handed a frame whose predecessor from the encoder it
never saw: when that one was refused, and when exactly 2³² frames were lost. -/
theorem produced_not_gapless :
    (∃ actions s, Machine.run step init actions = some s ∧ s.accepted.length < 2 ^ 32 ∧
      ¬ Gapless s.produced s.delivered) ∧
    (∃ actions s, Machine.run step init actions = some s ∧ s.accepted = s.produced ∧
      ¬ Gapless s.produced s.delivered) := by
  obtain ⟨s, hs, hproduced, haccepted, hrest⟩ := run_deliverBoth
  constructor
  · obtain ⟨s', hrun, hp, ha, hd⟩ := hrest [keyFrame, oversizedFrame] [keyFrame]
    obtain ⟨e, he⟩ := frameHeader_oversized s.sender
    refine ⟨sendKey :: .sendFrame oversizedFrame 1 1 0 0 sendAll :: deliverBoth, s', ?_, ?_, ?_⟩
    · rw [Machine.run_cons_eq_some]
      refine ⟨s, hs, Machine.run_cons_eq_some.mpr ⟨_, step_refused he 0 0 sendAll, ?_⟩⟩
      rw [hproduced]
      rw [← haccepted] at hrun
      exact hrun
    · rw [ha]; decide
    · rw [hp, hd]
      refine not_gapless [oversizedFrame] (by simp) ?_
      intro v hv
      obtain rfl := List.mem_singleton.mp hv
      have hlen : 1 < oversizedFrame.data.length := by
        simp only [oversizedFrame, List.length_replicate]
        decide
      exact ⟨fun h => by simp [h] at hlen, fun h => by simp [h] at hlen⟩
  · obtain ⟨s', hrun, hp, ha, hd⟩ :=
      hrest ([keyFrame] ++ List.replicate (2 ^ 32) lostFrame)
        ([keyFrame] ++ List.replicate (2 ^ 32) lostFrame)
    refine ⟨sendKey :: (List.replicate (2 ^ 32) (Action.sendFrame lostFrame 1 1 0 0 sendNone)
      ++ deliverBoth), s', ?_, by rw [hp, ha], ?_⟩
    · rw [Machine.run_cons_eq_some]
      refine ⟨s, hs, Machine.run_append_eq_some.mpr ⟨_, run_lost _ s, ?_⟩⟩
      have hwrap : UInt32.ofNat (2 ^ 32) = 0 := by decide
      rw [hwrap, UInt32.add_zero, UInt32.add_zero, hproduced, haccepted]
      exact hrun
    · rw [hp, hd]
      refine not_gapless (List.replicate (2 ^ 32) lostFrame) ?_ ?_
      · rw [Ne, List.replicate_eq_nil_iff]
        decide
      · intro v hv
        rw [List.eq_of_mem_replicate hv]
        decide

end MahoRD.Delivery
